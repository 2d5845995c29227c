import OneBit.Command.Arguments
import OneBit.Proofs.FileTree
/-!
# Command lines without options

A subcommand that is given no more arguments than it needs takes each of them for what stands at
its place: none of them can be an option, and none the two dashes.
-/

namespace OneBit.Command

open Text

variable {options fewer : List OptionSpec} {text name : Raw} {arguments rest : List Raw}
  {token : Token} {parts next after : List Token} {spec : OptionSpec} {settings : List Setting}
  {topic : Topic}

/-! ## Parts that arguments play -/

/-- The token is known by its place. -/
def Token.isArgument : Token → Bool
  | argument _ => true
  | _ => false

theorem exactOption?_eq_none_of_subset (hfewer : fewer ⊆ options)
    (h : exactOption? options text = none) : exactOption? fewer text = none := by
  unfold exactOption? at *
  rw [List.find?_eq_none] at *
  exact fun spec hspec => h spec (hfewer hspec)

theorem fullOption?_eq_none_of_subset (hfewer : fewer ⊆ options)
    (h : fullOption? options text = none) : fullOption? fewer text = none := by
  unfold fullOption? at *
  cases hexact : exactOption? options text with
  | some spec => simp [hexact] at h
  | none =>
      rw [exactOption?_eq_none_of_subset hfewer hexact]
      simp only [hexact] at h
      cases hsplit : splitEquals text with
      | mk name value? =>
          cases value? with
          | none => rfl
          | some value =>
              simp only [hsplit, Option.map_eq_none_iff] at h ⊢
              exact exactOption?_eq_none_of_subset hfewer h

theorem candidates_eq_nil_of_subset (hfewer : fewer ⊆ options)
    (h : candidates options text = []) : candidates fewer text = [] := by
  unfold candidates at *
  split at h
  · simp only [List.map_eq_nil_iff, List.filter_eq_nil_iff] at *
    exact fun spec hspec => h spec (hfewer hspec)
  · simp only [List.map_eq_nil_iff, List.filter_eq_nil_iff] at *
    exact fun spec hspec => h spec (hfewer hspec)
  · rfl

theorem ne_dashes_of_head (h : text.head? ≠ some (.char '-')) : text ≠ twoDashes := by
  rintro rfl
  exact h rfl

theorem classify_of_head (h : text.head? ≠ some (.char '-')) :
    classify options text = .ok (.argument text) := by
  unfold classify
  rw [if_pos (.inl h)]

/-- An argument that is no option is none where fewer options are known. -/
theorem classify_of_subset (hfewer : fewer ⊆ options)
    (h : classify options text = .ok (.argument text)) :
    classify fewer text = .ok (.argument text) := by
  unfold classify at *
  by_cases hplain : text.head? ≠ some (.char '-') ∨ text.length = 1
  · rw [if_pos hplain]
  · rw [if_neg hplain] at h ⊢
    cases hfull : fullOption? options text with
    | some found => simp [hfull] at h
    | none =>
        rw [fullOption?_eq_none_of_subset hfewer hfull]
        cases hcandidates : candidates options text with
        | nil =>
            rw [candidates_eq_nil_of_subset hfewer hcandidates]
            simpa only [hfull, hcandidates] using h
        | cons found others => cases others <;> simp [hfull, hcandidates] at h

theorem text_of_classify (h : classify options text = .ok token) : token.text = text := by
  revert h
  fun_cases classify options text <;> intro h <;> cases h <;> rfl

theorem tokens_cons (hdashes : text ≠ twoDashes) :
    tokens options (text :: rest) =
      (classify options text >>= fun token => tokens options rest >>= fun next =>
        .ok (token :: next)) := by
  rw [tokens, if_neg hdashes]
  rfl

theorem map_text_tokens (h : tokens options arguments = .ok next) :
    next.map Token.text = arguments := by
  induction arguments generalizing next with
  | nil =>
      cases h
      rfl
  | cons text rest ih =>
      by_cases hdashes : text = twoDashes
      · rw [tokens, if_pos hdashes] at h
        cases h
        rw [hdashes, List.map_cons, List.map_map]
        exact congrArg _ (List.map_id rest)
      · rw [tokens_cons hdashes] at h
        obtain ⟨token, htoken, h⟩ := bind_eq_ok_iff.1 h
        obtain ⟨later, hlater, h⟩ := bind_eq_ok_iff.1 h
        cases h
        rw [List.map_cons, text_of_classify htoken, ih hlater]

/-- Every argument is known by its place. -/
def Plain (options : List OptionSpec) (arguments : List Raw) : Prop :=
  ∀ text ∈ arguments, text ≠ twoDashes ∧ classify options text = .ok (.argument text)

theorem tokens_eq_map_iff :
    tokens options arguments = .ok (arguments.map .argument) ↔ Plain options arguments := by
  unfold Plain
  induction arguments with
  | nil => simp [tokens]
  | cons text rest ih =>
      rw [List.forall_mem_cons, ← ih]
      by_cases hdashes : text = twoDashes
      · simp [tokens, hdashes]
      · rw [tokens_cons hdashes]
        simp only [bind_eq_ok_iff]
        constructor
        · rintro ⟨token, htoken, next, hnext, h⟩
          cases h
          exact ⟨⟨hdashes, htoken⟩, hnext⟩
        · rintro ⟨⟨-, htoken⟩, hnext⟩
          exact ⟨_, htoken, _, hnext, rfl⟩

theorem map_argument_text (hall : parts.countP Token.isArgument = parts.length) :
    (parts.map Token.text).map Token.argument = parts := by
  have hargument : ∀ part ∈ parts, Token.argument part.text = part := by
    intro part hpart
    have h := List.countP_eq_length.1 hall part hpart
    cases part with
    | argument text => rfl
    | dashes => cases h
    | option text found? => cases h
  rw [List.map_map]
  exact (List.map_congr_left hargument).trans (List.map_id' parts)

/-! ## Arguments that are still missing -/

theorem suffix_of_takeOption (h : takeOption spec next = .ok (settings, after)) :
    after <:+ next := by
  unfold takeOption at h
  split_ifs at h with hswitch
  · cases h
    exact List.suffix_rfl
  · split at h
    · cases h
      exact List.suffix_cons _ _
    · cases h

theorem suffix_of_takeJoined {isShort : Bool}
    (h : takeJoined options next spec isShort text = .ok (settings, after)) : after <:+ next := by
  fun_induction takeJoined options next spec isShort text generalizing settings with
  | case1 =>
      cases h
      exact List.suffix_rfl
  | case2 | case5 => cases h
  | case3 =>
      obtain ⟨taken, htaken, h⟩ := bind_eq_ok_iff.1 h
      cases h
      exact suffix_of_takeOption htaken
  | case4 =>
      rename_i ih
      obtain ⟨taken, htaken, h⟩ := bind_eq_ok_iff.1 h
      cases h
      exact ih htaken

namespace Collected

variable {c d : Collected} {positionals : List Positional} {setting : Setting} {rounds : Nat}

theorem missing_of_set (h : set topic c setting = .ok d) : d.missing = c.missing := by
  unfold set at h
  split at h
  · cases h
  · cases h
    rfl
  · cases h
    rfl
  · obtain ⟨level, -, h⟩ := bind_eq_ok_iff.1 h
    cases h
    rfl
  · obtain ⟨format, -, h⟩ := bind_eq_ok_iff.1 h
    cases h
    rfl

theorem missing_of_foldlM (h : settings.foldlM (set topic) c = .ok d) : d.missing = c.missing := by
  induction settings generalizing c with
  | nil =>
      cases h
      rfl
  | cons setting settings ih =>
      rw [List.foldlM_cons] at h
      obtain ⟨middle, hset, hrest⟩ := bind_eq_ok_iff.1 h
      rw [ih hrest, missing_of_set hset]

theorem countP_dropWhile_le (p : Token → Bool) (parts : List Token) :
    (parts.dropWhile p).countP Token.isArgument ≤ parts.countP Token.isArgument :=
  (List.dropWhile_sublist p).countP_le

theorem countP_of_dropWhile {p : Token → Bool} (h : parts.dropWhile p = .argument text :: next) :
    next.countP Token.isArgument + 1 ≤ parts.countP Token.isArgument := by
  have hle := countP_dropWhile_le p parts
  rw [h, List.countP_cons_of_pos rfl] at hle
  exact hle

theorem length_le_takePositionals
    (h : takePositionals parts c positionals = (after, d)) :
    positionals.length + after.countP Token.isArgument ≤
      d.missing.length + parts.countP Token.isArgument := by
  fun_induction takePositionals parts c positionals with
  | case1 parts c =>
      cases h
      exact Nat.le_refl _
  | case2 parts c later text next hnext =>
      have hcount := countP_of_dropWhile hnext
      cases h
      rw [List.length_cons, List.countP_nil]
      dsimp only
      omega
  | case3 parts c later text next hnext ih | case4 parts c later text next hnext _ ih =>
      have hcount := countP_of_dropWhile hnext
      have hdashes := countP_dropWhile_le Token.isDashes next
      have hlater := ih h
      rw [List.length_cons]
      omega
  | case5 parts c positional later =>
      cases h
      exact Nat.le_refl _

/-- What was missing is found among the arguments or still missing. -/
theorem length_missing_le_collect (h : collect topic rounds parts c = .ok d) :
    c.missing.length ≤ d.missing.length + parts.countP Token.isArgument := by
  fun_induction collect topic rounds parts c with
  | case1 parts c | case2 rounds c =>
      cases h
      exact Nat.le_add_right _ _
  | case3 rounds c text next ih => exact ih h
  | case4 rounds c text found next taken ih =>
      -- An option may take the next argument for its value, but finds nothing that is missing.
      obtain ⟨⟨settings, after⟩, htaken, h⟩ := bind_eq_ok_iff.1 h
      obtain ⟨c', hset, h⟩ := bind_eq_ok_iff.1 h
      have hsuffix : after <:+ next := by
        replace htaken := mapError_eq_ok_iff.1 htaken
        dsimp only [taken] at htaken
        split at htaken
        · exact suffix_of_takeOption htaken
        · exact suffix_of_takeJoined htaken
      have hcount : after.countP Token.isArgument ≤ next.countP Token.isArgument :=
        hsuffix.sublist.countP_le
      have hcollect := ih after c' h
      rw [missing_of_foldlM hset] at hcollect
      rw [List.countP_cons_of_neg (by simp [Token.isArgument])]
      omega
  | case5 rounds parts c next c' htake hmore _ _ _ ih =>
      have htaken := length_le_takePositionals htake
      rw [htake, if_pos hmore] at h
      have hcollect := ih h
      omega
  | case6 rounds parts c next c' htake hmore unknown _ _ _ ih =>
      have htaken := length_le_takePositionals htake
      have hcount := countP_dropWhile_le (fun part => !part.isOption) next
      rw [htake, if_neg hmore] at h
      have hcollect := ih h
      dsimp only at hcollect
      omega

/-- As many arguments as a command needs are all known by their place, if it takes them. -/
theorem plain_of_ofArguments (h : ofArguments topic arguments = .ok d)
    (hlength : arguments.length = topic.positionals.length) :
    Plain topic.options arguments := by
  obtain ⟨parts, hparts, h⟩ := bind_eq_ok_iff.1 h
  obtain ⟨c, hcollect, h⟩ := bind_eq_ok_iff.1 h
  replace hparts := mapError_eq_ok_iff.1 hparts
  have htexts := map_text_tokens hparts
  have hmissing : c.missing = [] := by
    split_ifs at h with hempty
    exact List.isEmpty_iff.1 hempty
  have hcount := length_missing_le_collect hcollect
  -- Nothing is missing in the end, so none of the arguments was spent on an option.
  have hall : parts.countP Token.isArgument = parts.length := by
    have hle := parts.countP_le_length (p := Token.isArgument)
    have hlen : parts.length = arguments.length := by rw [← htexts, List.length_map]
    rw [hmissing, List.length_nil] at hcount
    dsimp only at hcount
    omega
  apply tokens_eq_map_iff.1
  rw [hparts, ← htexts, map_argument_text hall]

end Collected

/-! ## Subcommands -/

theorem collected_main (hname : name.head? ≠ some (.char '-')) :
    Collected.ofArguments .main (name :: rest) =
      ((tokens Topic.main.options rest).mapError (.usage .main) >>= fun _ =>
        .ok { command := name :: rest, missing := [] }) := by
  unfold Collected.ofArguments
  rw [tokens_cons (ne_dashes_of_head hname), classify_of_head hname]
  cases hrest : tokens Topic.main.options rest with
  | error e => rfl
  | ok next =>
      rw [← map_text_tokens hrest]
      rfl

theorem collected_assemble {input output : Raw}
    (h : Plain Topic.assemble.options [input, output]) :
    Collected.ofArguments .assemble [input, output] =
      .ok { input, output? := some output, missing := [] } := by
  have hblank : output ≠ twoDashes := (h output (by simp)).1
  have houtput : (if (decide (output = twoDashes) && true) = true then none
      else some output) = some output := by
    simp [hblank]
  unfold Collected.ofArguments
  rw [tokens_eq_map_iff.2 h, ← houtput]
  rfl

theorem collected_list {input : Raw} (h : Plain Topic.list.options [input]) :
    Collected.ofArguments .list [input] = .ok { input, missing := [] } := by
  unfold Collected.ofArguments
  rw [tokens_eq_map_iff.2 h]
  rfl

theorem head?_of_ofName? (h : Topic.ofName? name = some topic) :
    name.head? ≠ some (.char '-') := by
  obtain ⟨text, htext, hlookup⟩ := Option.bind_eq_some_iff.1 h
  rw [Raw.toString?_eq_some_iff.1 htext]
  by_cases hasm : text = "asm"
  · rw [hasm]
    decide
  by_cases hlist : text = "list"
  · rw [hlist]
    decide
  · simp [subcommands, List.lookup_cons, beq_eq_false_iff_ne.2 hasm,
      beq_eq_false_iff_ne.2 hlist] at hlookup

/-- The subcommand decides, unless its arguments cannot be told from options. -/
theorem ofArguments_subcommand (environment : Option Raw)
    (hname : Topic.ofName? name = some topic) :
    Invocation.ofArguments environment (name :: rest) =
      ((tokens Topic.main.options rest).mapError (.usage .main) >>= fun _ =>
        Collected.ofArguments topic rest >>= fun c =>
          if c.unrecognized.isEmpty = true then
            .ok ⟨Invocation.taskOf topic c, false, some (levelOfEnvironment environment)⟩
          else .error (.usage .main (.unrecognized c.unrecognized))) := by
  unfold Invocation.ofArguments
  rw [collected_main (head?_of_ofName? hname)]
  cases tokens Topic.main.options rest with
  | error e => rfl
  | ok parts =>
      simp only [Except.mapError, bind, Except.bind, List.headD_cons, hname, List.tail_cons]
      rfl

theorem exists_collected {environment : Option Raw} {i : Invocation}
    (hname : Topic.ofName? name = some topic)
    (h : Invocation.ofArguments environment (name :: rest) = .ok i) :
    (∃ parts, tokens Topic.main.options rest = .ok parts) ∧
      ∃ c, Collected.ofArguments topic rest = .ok c ∧
        i = ⟨Invocation.taskOf topic c, false, some (levelOfEnvironment environment)⟩ := by
  rw [ofArguments_subcommand environment hname] at h
  obtain ⟨parts, hmain, h⟩ := bind_eq_ok_iff.1 h
  obtain ⟨c, hcollected, h⟩ := bind_eq_ok_iff.1 h
  refine ⟨⟨parts, mapError_eq_ok_iff.1 hmain⟩, c, hcollected, ?_⟩
  split_ifs at h
  exact (Except.ok.inj h).symm

/-! ## Listing by name -/

theorem ofArguments_list {path : Raw} (environment : Option Raw)
    (hmain : ∃ parts, tokens Topic.main.options [path] = .ok parts)
    (hpath : Plain Topic.list.options [path]) :
    Invocation.ofArguments environment ["list", path] =
      .ok ⟨.list path, false, some (levelOfEnvironment environment)⟩ := by
  have hname : Topic.ofName? "list" = some .list := rfl
  obtain ⟨parts, hparts⟩ := hmain
  rw [ofArguments_subcommand environment hname, hparts, collected_list hpath]
  rfl

theorem ofArguments_list_of_head {path : Raw} (environment : Option Raw)
    (h : path.head? ≠ some (.char '-')) :
    Invocation.ofArguments environment ["list", path] =
      .ok ⟨.list path, false, some (levelOfEnvironment environment)⟩ := by
  have hplain : ∀ options, Plain options [path] := by
    intro options text htext
    rw [List.mem_singleton.1 htext]
    exact ⟨ne_dashes_of_head h, classify_of_head h⟩
  exact ofArguments_list environment ⟨_, tokens_eq_map_iff.2 (hplain _)⟩ (hplain _)

theorem eq_of_ofArguments_list {environment : Option Raw} {path : Raw} {i : Invocation}
    (h : Invocation.ofArguments environment ["list", path] = .ok i) :
    i = ⟨.list path, false, some (levelOfEnvironment environment)⟩ := by
  obtain ⟨-, c, hc, rfl⟩ := exists_collected rfl h
  rw [collected_list (Collected.plain_of_ofArguments hc rfl)] at hc
  cases hc
  rfl

/-! ## Assembling by name -/

section

variable {environment : Option Raw} {input output : Raw} {i : Invocation}
  (h : Invocation.ofArguments environment ["asm", input, output] = .ok i)
include h

theorem eq_of_ofArguments_asm :
    i = ⟨.assemble input (some output) (some .bin) false, false,
      some (levelOfEnvironment environment)⟩ := by
  obtain ⟨-, c, hc, rfl⟩ := exists_collected rfl h
  rw [collected_assemble (Collected.plain_of_ofArguments hc rfl)] at hc
  cases hc
  rfl

/-- An output that can be named for writing can be named for listing. -/
theorem ofArguments_list_of_asm (environment' : Option Raw) :
    Invocation.ofArguments environment' ["list", output] =
      .ok ⟨.list output, false, some (levelOfEnvironment environment')⟩ := by
  obtain ⟨⟨parts, hparts⟩, c, hc, -⟩ := exists_collected rfl h
  have hplain := Collected.plain_of_ofArguments hc rfl
  have hinput := hplain input (by simp)
  have houtput := hplain output (by simp)
  rw [tokens_cons hinput.1] at hparts
  obtain ⟨token, -, hparts⟩ := bind_eq_ok_iff.1 hparts
  obtain ⟨next, hnext, -⟩ := bind_eq_ok_iff.1 hparts
  refine ofArguments_list environment' ⟨next, hnext⟩ ?_
  intro text htext
  rw [List.mem_singleton.1 htext]
  exact ⟨houtput.1, classify_of_subset (by decide) houtput.2⟩

end

end OneBit.Command
