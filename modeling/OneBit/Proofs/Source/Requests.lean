import OneBit.Proofs.Source.Program
import OneBit.Proofs.Text.Position
import OneBit.Source.Requests
/-!
# What any requests leave of a cursor

A cursor that started at the front of a text can be asked for any steps of reading, in any order and
after any failures.  It stays inside of the part to be read, moves forward only, unless a whole
program is asked for, and an error is always one at its place.

Looking for a line end is the one step that does not heed the end of the part to be read.  It stays
inside because of where this end can be: at the end of the text, or behind a character that is no
blank, and hence no carriage return.
-/

namespace OneBit.Source

open Text Grammar

namespace Cursor

/-! ## Cursors that may go on -/

/-- The cursor is inside of its text, and the part to be read ends with the text or behind a
character that is no blank. -/
structure Sound (c : Cursor) : Prop where
  inside : c.Inside
  guarded : c.stop = c.text.length ∨ EndsSolid (before c.text c.stop)

/-- Where a step of reading may leave a cursor: further on in the part to be read, with more
warnings behind those there were. -/
structure Onward (c next : Cursor) : Prop where
  text_eq : next.text = c.text
  stop_eq : next.stop = c.stop
  pos_le : c.pos ≤ next.pos
  pos_le_stop : next.pos ≤ c.stop
  warnings : c.warnings <+: next.warnings

variable {c next last : Cursor}

theorem Sound.onward_self (h : c.Sound) : c.Onward c :=
  ⟨rfl, rfl, Int.le_refl _, h.inside.2.1, List.prefix_refl _⟩

theorem Onward.trans (h : c.Onward next) (h' : next.Onward last) : c.Onward last where
  text_eq := h'.text_eq.trans h.text_eq
  stop_eq := h'.stop_eq.trans h.stop_eq
  pos_le := h.pos_le.trans h'.pos_le
  pos_le_stop := h.stop_eq ▸ h'.pos_le_stop
  warnings := h.warnings.trans h'.warnings

theorem Onward.sound (h : c.Onward next) (hc : c.Sound) : next.Sound := by
  obtain ⟨⟨hpos, -, hstop⟩, hguarded⟩ := hc
  have hle := h.pos_le
  have hle' := h.pos_le_stop
  refine ⟨⟨?_, ?_, ?_⟩, ?_⟩
  · omega
  · rw [h.stop_eq]
    exact hle'
  · rw [h.stop_eq, h.text_eq]
    exact hstop
  · rw [h.stop_eq, h.text_eq]
    exact hguarded

theorem sound_start (text : List Char) : (start text).Sound :=
  ⟨start_inside text, .inl rfl⟩

/-! ## The three parts of the text -/

variable {passed run rest ahead beyond : List Char} {warnings : List (Nat × Truncation)}

/-- Every cursor inside of its text splits it in three. -/
theorem Inside.exists_amid (h : c.Inside) :
    ∃ passed ahead beyond warnings, c = amid passed ahead beyond warnings := by
  obtain ⟨hpos, hle, hstop⟩ := h
  have hsplit : place c.text c.pos.toNat c.stop.toNat c.warnings = _ :=
    place_eq_amid (by omega) (by omega)
  rw [Int.toNat_of_nonneg hpos, Int.toNat_of_nonneg (by omega)] at hsplit
  exact ⟨_, _, _, _, c.eq_place.trans hsplit⟩

theorem before_amid : before (amid passed ahead beyond warnings).text
    (amid passed ahead beyond warnings).stop = passed ++ ahead := by
  rw [amid_stop, amid_text, ← List.length_append, before_append]

theorem Sound.guarded_amid (h : (amid passed ahead beyond warnings).Sound) :
    beyond = [] ∨ EndsSolid (passed ++ ahead) := by
  rcases h.guarded with hstop | hsolid
  · rw [amid_stop, amid_text] at hstop
    simp only [List.length_append] at hstop
    exact .inl (List.eq_nil_of_length_eq_zero (by omega))
  · rw [before_amid] at hsolid
    exact .inr hsolid

theorem onward_amid (run rest : List Char) :
    (amid passed (run ++ rest) beyond warnings).Onward
      (amid (passed ++ run) rest beyond warnings) where
  text_eq := by simp only [amid_text, List.append_assoc]
  stop_eq := by simp only [amid_stop, List.length_append, Nat.add_assoc]
  pos_le := by
    simp only [amid_pos, List.length_append]
    omega
  pos_le_stop := by
    simp only [amid_pos, amid_stop, List.length_append]
    omega
  warnings := by simp only [amid_warnings, List.prefix_refl]

end Cursor

namespace Scan

open Cursor

variable {α β : Type} {x : Scan α} {f : α → Scan β}

/-! ## Steps that keep a cursor sound -/

/-- The error is one at the place of a cursor. -/
def IsAt (e : SyntaxError) (c : Cursor) : Prop :=
  ∃ expected candidates, e = .inText c.text c.pos expected candidates

/-- How a step may end: further on, and an error where it ends. -/
def Lawful (c : Cursor) : EStateM.Result SyntaxError Cursor α → Prop
  | .ok _ next => c.Onward next
  | .error e next => c.Onward next ∧ IsAt e next

/-- How a step that reads one part may end: further on, or with an error where it started. -/
def AllOrNothing (c : Cursor) : EStateM.Result SyntaxError Cursor α → Prop
  | .ok _ next => c.Onward next
  | .error e next => next = c ∧ IsAt e next

/-- A step that may be asked for at any sound cursor. -/
def Steady (x : Scan α) : Prop := ∀ c : Cursor, c.Sound → Lawful c (x.run c)

/-- A step that may be asked for at any sound cursor and leaves it where it is if it fails. -/
def Firm (x : Scan α) : Prop := ∀ c : Cursor, c.Sound → AllOrNothing c (x.run c)

/-- A step that cannot fail at a sound cursor. -/
def Sure (x : Scan α) : Prop :=
  ∀ c : Cursor, c.Sound → ∃ value next, x.run c = .ok value next ∧ c.Onward next

theorem Firm.steady (h : Firm x) : Steady x := by
  intro c hc
  have hx := h c hc
  cases hrun : x.run c with
  | ok value next =>
      rw [hrun] at hx
      exact hx
  | error e next =>
      rw [hrun] at hx
      obtain ⟨rfl, he⟩ := hx
      exact ⟨hc.onward_self, he⟩

theorem Lawful.trans {c next : Cursor} {result : EStateM.Result SyntaxError Cursor α}
    (h : c.Onward next) (h' : Lawful next result) : Lawful c result := by
  cases result with
  | ok value last => exact h.trans h'
  | error e last => exact ⟨h.trans h'.1, h'.2⟩

theorem steady_pure (value : α) : Steady (pure value : Scan α) :=
  fun _ hc => hc.onward_self

theorem steady_get : Steady (get : Scan Cursor) := fun _ hc => hc.onward_self

theorem firm_fail (expected : Expected) : Firm (fail expected : Scan α) :=
  fun _ _ => ⟨rfl, expected, [], rfl⟩

theorem Steady.bind (hx : Steady x) (hf : ∀ value, Steady (f value)) : Steady (x >>= f) := by
  intro c hc
  have hfirst := hx c hc
  rw [EStateM.run_bind]
  cases hrun : x.run c with
  | ok value next =>
      rw [hrun] at hfirst
      exact Lawful.trans hfirst (hf value next (hfirst.sound hc))
  | error e next =>
      rw [hrun] at hfirst
      exact hfirst

theorem sure_pure (value : α) : Sure (pure value : Scan α) :=
  fun c hc => ⟨value, c, rfl, hc.onward_self⟩

theorem sure_warn (line : Nat) (truncation : Truncation) :
    Sure (modify (·.warn line truncation) : Scan Unit) := by
  intro c hc
  have honward := hc.onward_self
  exact ⟨(), c.warn line truncation, rfl, honward.text_eq, honward.stop_eq, honward.pos_le,
    honward.pos_le_stop, List.prefix_append _ _⟩

theorem Sure.bind (hx : Sure x) (hf : ∀ value, Sure (f value)) : Sure (x >>= f) := by
  intro c hc
  obtain ⟨value, next, hrun, honward⟩ := hx c hc
  obtain ⟨result, last, hlast, honward'⟩ := hf value next (honward.sound hc)
  refine ⟨result, last, ?_, honward.trans honward'⟩
  rw [EStateM.run_bind, hrun]
  exact hlast

/-- A step stays firm when what follows cannot fail. -/
theorem Firm.bind (hx : Firm x) (hf : ∀ value, Sure (f value)) : Firm (x >>= f) := by
  intro c hc
  have hfirst := hx c hc
  rw [EStateM.run_bind]
  cases hrun : x.run c with
  | ok value next =>
      rw [hrun] at hfirst
      obtain ⟨result, last, hlast, honward⟩ := hf value next (hfirst.sound hc)
      change AllOrNothing c ((f value).run next)
      rw [hlast]
      exact Onward.trans hfirst honward
  | error e next =>
      rw [hrun] at hfirst
      exact hfirst

/-- For a firm step it is enough to know what it does amid a text. -/
theorem firm_of_amid (h : ∀ passed ahead beyond warnings,
    AllOrNothing (amid passed ahead beyond warnings) (x.run (amid passed ahead beyond warnings))) :
    Firm x := by
  intro c hc
  obtain ⟨passed, ahead, beyond, warnings, rfl⟩ := hc.inside.exists_amid
  exact h passed ahead beyond warnings

theorem isAt_amid {passed ahead beyond : List Char} {warnings : List (Nat × Truncation)}
    {text : List Char} (htext : text = passed ++ ahead ++ beyond) (expected : Expected)
    (candidates : List Instruction) :
    IsAt (.inText text passed.length expected candidates) (amid passed ahead beyond warnings) := by
  refine ⟨expected, candidates, ?_⟩
  rw [amid_text, amid_pos, htext]

theorem Refuses.allOrNothing {passed ahead beyond : List Char} {warnings : List (Nat × Truncation)}
    (h : Refuses x ahead) : AllOrNothing (amid passed ahead beyond warnings)
      (x.run (amid passed ahead beyond warnings)) := by
  obtain ⟨expected, candidates, hrun⟩ := h
  rw [hrun]
  exact ⟨rfl, isAt_amid rfl expected candidates⟩

/-! ## Single parts -/

theorem firm_peek : Firm peek := by
  intro c hc
  rw [run_peek hc.inside]
  exact hc.onward_self

theorem firm_skipSpace : Firm skipSpace := by
  apply firm_of_amid
  intro passed ahead beyond warnings
  obtain ⟨run, rest, rfl, hlong⟩ := exists_longest isSpace ahead
  rw [run_skipSpace hlong.all hlong.stops]
  exact onward_amid run rest

theorem firm_separator (expected : Expected) : Firm (separator expected) := by
  apply firm_of_amid
  intro passed ahead beyond warnings
  rcases separator_cases expected ahead with ⟨gap, rest, rfl, hne, hgap, hrest⟩ | hrefuses
  · rw [run_separator hne hgap hrest]
    exact onward_amid gap rest
  · exact hrefuses.allOrNothing

theorem firm_numeral (expected : Expected) : Firm (numeral expected) := by
  apply firm_of_amid
  intro passed ahead beyond warnings
  rcases numeral_cases expected ahead with ⟨token, rest, value, rfl, hvalue, hrest⟩ | hrefuses
  · rw [run_numeral hvalue hrest]
    exact onward_amid token rest
  · exact hrefuses.allOrNothing

/-- An operand fails only where its numeral is missing: noting that it does not fit cannot fail. -/
theorem firm_operand (kind : Operand) (expected : Expected) : Firm (operand kind expected) := by
  intro c hc
  refine (firm_numeral expected).bind (fun value => ?_) c hc
  split
  · exact (sure_warn _ _).bind fun _ => sure_pure value
  · exact sure_pure value

theorem firm_address : Firm address :=
  (firm_operand .address .address).bind fun _ => sure_pure _

theorem firm_control : Firm control :=
  (firm_operand .control .control).bind fun _ => sure_pure _

theorem firm_instruction : Firm instruction := by
  apply firm_of_amid
  intro passed ahead beyond warnings
  rcases instruction_cases ahead with ⟨token, rest, i, rfl, hi, hrest⟩ | hrefuses
  · rw [run_instruction hi hrest]
    exact onward_amid token rest
  · exact hrefuses.allOrNothing

theorem firm_comment : Firm comment := by
  apply firm_of_amid
  intro passed ahead beyond warnings
  rcases comment_cases ahead with ⟨body, rest, rfl, hbody, hrest⟩ | hrefuses
  · rw [run_comment hbody hrest]
    exact onward_amid (';' :: body) rest
  · exact hrefuses.allOrNothing

/-! ## Line ends -/

/-- A carriage return before the end of the part to be read has its line feed there too. -/
theorem steady_newline (expected : Expected) : Steady (newline expected) := by
  intro c hc
  obtain ⟨passed, ahead, beyond, warnings, rfl⟩ := hc.inside.exists_amid
  have hguard : beyond = [] ∨ EndsSolid ahead := hc.guarded_amid.imp_right EndsSolid.of_append
  rcases newline_cases expected ahead with
    ⟨run, ending, rest, rfl, hrun, hending⟩ | ⟨run, rest, rfl, hfails⟩
  · rw [run_newline hrun hending]
    exact onward_amid (run ++ ending) rest
  · rw [hfails passed beyond warnings hguard]
    exact ⟨onward_amid run rest, isAt_amid rfl _ _⟩

theorem steady_finish (expected : Expected) : Steady (finish expected) := by
  refine (steady_newline expected).bind fun _ => steady_get.bind fun c => ?_
  split
  · exact (firm_fail expected).steady
  · exact steady_pure _

/-! ## Words, lines and programs -/

theorem steady_word : Steady word :=
  firm_instruction.steady.bind fun _ =>
    (firm_separator .address).steady.bind fun _ =>
      firm_address.steady.bind fun _ =>
        (firm_separator .control).steady.bind fun _ =>
          firm_control.steady.bind fun _ => steady_pure _

theorem steady_line : Steady line := by
  refine firm_skipSpace.steady.bind fun _ => firm_peek.steady.bind fun next => ?_
  split
  · exact firm_comment.steady.bind fun _ => (steady_newline .comment).bind fun _ => steady_pure _
  · exact steady_word.bind fun _ => (steady_newline .endOfLine).bind fun _ => steady_pure _

theorem steady_lines (limit : Nat) : Steady (lines limit) := by
  induction limit with
  | zero => exact steady_pure []
  | succ limit ih =>
      refine steady_get.bind fun c => ?_
      split
      · exact steady_pure []
      · exact steady_line.bind fun _ => ih.bind fun _ => steady_pure _

/-- A program is read by lines from a sound cursor, wherever the cursor was. -/
theorem exists_sound_run_program (c : Cursor) : ∃ (origin : Cursor) (limit : Nat),
    origin.Sound ∧ origin.text = c.text ∧ origin.warnings = c.warnings ∧
      program.run c = (lines limit).run origin := by
  obtain ⟨trail, htext, hrun⟩ := run_program_from c
  refine ⟨_, _, ⟨amid_inside, ?_⟩, by rw [amid_text, ← htext], amid_warnings, hrun⟩
  by_cases hcore : trim c.text = []
  · -- A blank text is all leading blanks, and nothing of it lies beyond.
    have hlead : c.text = c.text.takeWhile isBlank := by
      have hsplit := List.takeWhile_append_dropWhile (p := isBlank) (l := c.text)
      rw [← trimLeft, trimLeft_eq_nil_of_trim_eq_nil hcore, List.append_nil] at hsplit
      exact hsplit.symm
    have hlength := congrArg List.length htext
    rw [← hlead, hcore, List.append_nil, List.length_append] at hlength
    left
    rw [amid_stop, amid_text, hcore, List.append_nil, List.length_append, List.length_nil]
    omega
  · right
    rw [before_amid]
    exact (endsSolid_trim c.text).append hcore _

end Scan

/-! ## Requests -/

namespace Cursor

open Scan

/-- The requests that read one part of a line. -/
def Request.isPart : Request → Bool
  | comment | instruction | address | control | numeral _ | separator _ => true
  | _ => false

/-- The cursor after requests, one after the other, from the start of a text. -/
def after (text : List Char) (requests : List Request) : Cursor :=
  requests.foldl (fun c request => (c.serve request).2) (start text)

variable {c origin : Cursor} {request : Request}

theorem firm_scan (h : request.isPart = true) : Firm request.scan := by
  cases request with
  | comment => exact firm_comment.bind fun _ => sure_pure _
  | instruction => exact firm_instruction.bind fun _ => sure_pure _
  | address => exact firm_address.bind fun _ => sure_pure _
  | control => exact firm_control.bind fun _ => sure_pure _
  | numeral expected => exact (firm_numeral expected).bind fun _ => sure_pure _
  | separator expected => exact (firm_separator expected).bind fun _ => sure_pure _
  | _ => cases h

theorem steady_scan (h : request ≠ .program) : Steady request.scan := by
  by_cases hpart : request.isPart = true
  · exact (firm_scan hpart).steady
  cases request with
  | program => exact absurd rfl h
  | line => exact steady_line.bind fun _ => steady_pure _
  | word => exact steady_word.bind fun _ => steady_pure _
  | newline expected => exact (steady_newline expected).bind fun _ => steady_pure _
  | finish expected => exact (steady_finish expected).bind fun _ => steady_pure _
  | skipSpace => exact firm_skipSpace.steady.bind fun _ => steady_pure _
  | peek => exact firm_peek.steady.bind fun _ => steady_pure _
  | _ => exact absurd rfl hpart

/-- The answer to a request whose step ends lawfully. A program starts at another place. -/
theorem serve_of_lawful (h : Lawful origin (request.scan.run c)) :
    origin.Onward (c.serve request).2 ∧
      ∀ e, (c.serve request).1 = .error e → IsAt e (c.serve request).2 := by
  unfold serve
  cases hrun : request.scan.run c with
  | ok response next =>
      rw [hrun] at h
      exact ⟨h, fun e he => by cases he⟩
  | error found next =>
      rw [hrun] at h
      refine ⟨h.1, fun e he => ?_⟩
      cases he
      exact h.2

theorem eq_of_serve_error (hc : c.Sound) (hpart : request.isPart = true) {e : SyntaxError}
    (he : (c.serve request).1 = .error e) : (c.serve request).2 = c := by
  have h := firm_scan hpart c hc
  unfold serve at he ⊢
  cases hrun : request.scan.run c with
  | ok response next =>
      rw [hrun] at he
      cases he
  | error found next =>
      rw [hrun] at h
      exact h.1

/-- A request goes on from the cursor, or from where the program starts in its text. -/
theorem exists_onward_serve (hc : c.Sound) (request : Request) : ∃ origin : Cursor,
    origin.Sound ∧ origin.text = c.text ∧ origin.warnings = c.warnings ∧
      (request ≠ .program → origin = c) ∧ origin.Onward (c.serve request).2 ∧
      ∀ e, (c.serve request).1 = .error e → IsAt e (c.serve request).2 := by
  by_cases hprogram : request = .program
  · subst hprogram
    obtain ⟨origin, limit, horigin, htext, hwarnings, hrun⟩ := exists_sound_run_program c
    have hscan : Request.program.scan.run c =
        (do return Response.nodes (← Scan.lines limit) : Scan Response).run origin := by
      rw [Request.scan, EStateM.run_bind, EStateM.run_bind, hrun]
    have hsteady : Steady (do return Response.nodes (← Scan.lines limit) : Scan Response) :=
      (steady_lines limit).bind fun _ => steady_pure _
    have hlawful : Lawful origin (Request.program.scan.run c) := hscan ▸ hsteady origin horigin
    exact ⟨origin, horigin, htext, hwarnings, fun h => absurd rfl h, serve_of_lawful hlawful⟩
  · exact ⟨c, hc, rfl, rfl, fun _ => rfl, serve_of_lawful (steady_scan hprogram c hc)⟩

theorem after_concat (text : List Char) (requests : List Request) (request : Request) :
    after text (requests ++ [request]) = ((after text requests).serve request).2 := by
  rw [after, List.foldl_append]
  rfl

theorem sound_after (text : List Char) (requests : List Request) :
    (after text requests).Sound ∧ (after text requests).text = text := by
  induction requests using List.reverseRecOn with
  | nil => exact ⟨sound_start text, rfl⟩
  | append_singleton requests request ih =>
      obtain ⟨hsound, htext⟩ := ih
      obtain ⟨origin, horigin, hsame, -, -, honward, -⟩ := exists_onward_serve hsound request
      rw [after_concat]
      exact ⟨honward.sound horigin, honward.text_eq.trans (hsame.trans htext)⟩

/-- After any requests the cursor is inside of the part to be read, and that inside of the text. A
request moves it forward in this part, unless a program is asked for, and adds its warnings behind
the others. An error is one at the place where the cursor is then, and a request for one part of a
line that fails changes nothing. -/
theorem requests_keep_inside (text : List Char) (requests : List Request) :
    let c := after text requests
    (c.text = text ∧ 0 ≤ c.pos ∧ c.pos ≤ c.stop ∧ c.stop ≤ text.length) ∧
    ∀ request : Request,
      let next := after text (requests ++ [request])
      (c.serve request).2 = next ∧
      (request ≠ .program → c.pos ≤ next.pos ∧ next.pos ≤ c.stop ∧ next.stop = c.stop) ∧
      c.warnings <+: next.warnings ∧
      ∀ e, (c.serve request).1 = .error e →
        e.offset = next.pos ∧ (request.isPart = true → next = c) := by
  intro c
  obtain ⟨hsound, htext⟩ := sound_after text requests
  obtain ⟨hpos, hle, hstop⟩ := hsound.inside
  refine ⟨⟨htext, hpos, hle, ?_⟩, ?_⟩
  · rw [htext] at hstop
    exact hstop
  · intro request next
    have hnext : next = (c.serve request).2 := after_concat text requests request
    obtain ⟨origin, -, -, hwarnings, horigin, honward, herror⟩ := exists_onward_serve hsound request
    rw [hnext]
    refine ⟨rfl, ?_, ?_, ?_⟩
    · intro hprogram
      obtain rfl := horigin hprogram
      exact ⟨honward.pos_le, honward.pos_le_stop, honward.stop_eq⟩
    · have hprefix := honward.warnings
      rw [hwarnings] at hprefix
      exact hprefix
    · intro e he
      obtain ⟨expected, candidates, rfl⟩ := herror e he
      exact ⟨rfl, fun hpart => eq_of_serve_error hsound hpart he⟩

/-- A program that fails at its control is left there, and the control can be asked for in vain. -/
theorem requests_keep_inside_after_failure :
    let text := "ld 0o100 x".toList
    let c := after text [.program]
    let next := after text [.program, .control]
    let e := SyntaxError.inText text 9 .control []
    Request.control ≠ .program ∧ (c.serve .control).1 = .error e ∧ c.pos ≤ next.pos ∧
      c.warnings <+: next.warnings ∧ e.offset = next.pos ∧ next = c := by
  intro text c next e
  have herror : (c.serve .control).1 = .error e := by decide +kernel
  obtain ⟨-, hrequest⟩ := requests_keep_inside text [.program]
  obtain ⟨-, hforward, hwarnings, hat⟩ := hrequest .control
  obtain ⟨hoffset, hsame⟩ := hat e herror
  exact ⟨by decide, herror, (hforward (by decide)).1, hwarnings, hoffset, hsame rfl⟩

end Cursor

end OneBit.Source
