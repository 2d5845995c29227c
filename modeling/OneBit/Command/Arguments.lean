import OneBit.Command.Token
/-!
# Arguments of the command line

Options may stand before, between and after the other arguments of their own command. Short
switches can be put together with another short option, as in `-qf hex`. Of options that are
repeated the last counts. The subcommand takes all arguments that follow it. Two dashes in the
place of a value leave it blank.
-/

namespace OneBit.Command

open Text

abbrev Setting := OptionSpec × Option Raw

/-- The settings of one argument, and the tokens after it. -/
abbrev Taken := List Setting × List Token

/-- Takes an option without a joined text: the value, if it needs one, is the next argument. -/
def takeOption (spec : OptionSpec) (next : List Token) : Except UsageError Taken :=
  if spec.choices?.isNone then .ok ([(spec, none)], next)
  else
    match next with
    | .argument value :: rest => .ok ([(spec, some value)], rest)
    | _ => .error (.missingValue spec.title)

/-- Takes an option with a joined text: its value or, after a short switch, more short options. -/
def takeJoined (options : List OptionSpec) (next : List Token) (spec : OptionSpec)
    (isShort : Bool) (text : Raw) : Except UsageError Taken :=
  let ignored := UsageError.ignoredValue spec.title text
  if spec.choices?.isSome then
    .ok ([(spec, if text = twoDashes then none else some text)], next)
  else
    match text with
    | [] => .error ignored
    | mark :: rest =>
      match isShort, options.find? fun other => other.isShort mark with
      | true, some other => do
        let (settings, after) ←
          if rest.isEmpty then takeOption other next else takeJoined options next other true rest
        return ((spec, none) :: settings, after)
      | _, _ => .error ignored
termination_by text.length

structure Collected where
  verbose : Bool := false
  level : Given Level := .absent
  format : Given OutputFormat := .absent
  quiet : Bool := false
  input : Raw := []
  output? : Option Raw := none
  /-- The subcommand and the arguments after it. -/
  command : List Raw := []
  /-- The arguments that are still to come. -/
  missing : List Positional
  unrecognized : List Raw := []

namespace Collected

def named {α : Type} (topic : Topic) (setting : Setting) (ofName? : String → Option α) :
    Except Interruption (Given α) :=
  let (spec, value?) := setting
  match value? with
  | none => .ok .blank
  | some name =>
    match name.toString?.bind ofName? with
    | some value => .ok (.present value)
    | none =>
      .error (.usage topic (.invalidChoice spec.title name (spec.choices?.getD [])))

def set (topic : Topic) (c : Collected) (setting : Setting) : Except Interruption Collected :=
  match setting.1.key with
  | .help => .error (.help topic)
  | .verbose => .ok { c with verbose := true }
  | .quiet => .ok { c with quiet := true }
  | .logLevel => return { c with level := ← named topic setting Level.ofName? }
  | .format => return { c with format := ← named topic setting OutputFormat.ofName? }

/-- Takes the arguments known by their place, as many as stand next to each other. The subcommand
takes all that follows. Two dashes that no other two dashes precede leave the output blank. -/
def takePositionals (tokens : List Token) (c : Collected) : List Positional → List Token × Collected
  | [] => (tokens, { c with missing := [] })
  | positional :: later =>
    match positional, tokens.dropWhile Token.isDashes with
    | .command, .argument _ :: _ =>
      ([], { c with command := tokens.map Token.text, missing := later })
    | .input, .argument text :: rest =>
      takePositionals (rest.dropWhile Token.isDashes) { c with input := text } later
    | .output, .argument text :: rest =>
      let isBlank := text = twoDashes && !tokens.head?.any Token.isDashes
      takePositionals (rest.dropWhile Token.isDashes)
        { c with output? := if isBlank then none else some text } later
    | _, _ => (tokens, { c with missing := positional :: later })

/-- Goes through the tokens in order. Each round takes one token at least. -/
def collect (topic : Topic) : Nat → List Token → Collected → Except Interruption Collected
  | 0, _, c => .ok c
  | rounds + 1, tokens, c =>
    match tokens with
    | [] => .ok c
    | .option text none :: next =>
      collect topic rounds next { c with unrecognized := c.unrecognized ++ [text] }
    | .option _ (some found) :: next => do
      let taken := match found.joined? with
        | none => takeOption found.spec next
        | some text => takeJoined topic.options next found.spec found.isShort text
      let (settings, after) ← taken.mapError (Interruption.usage topic)
      let c ← settings.foldlM (set topic) c
      collect topic rounds after c
    | _ =>
      let (rest, c) := takePositionals tokens c c.missing
      if rest.length < tokens.length ∧ rest.any Token.isOption then collect topic rounds rest c
      else
        let unknown := rest.takeWhile (!·.isOption)
        collect topic rounds (rest.dropWhile (!·.isOption))
          { c with unrecognized := c.unrecognized ++ unknown.map Token.text }

def ofArguments (topic : Topic) (arguments : List Raw) : Except Interruption Collected := do
  let tokens ← (tokens topic.options arguments).mapError (.usage topic)
  let c ← collect topic (tokens.length + 1) tokens { missing := topic.positionals }
  if c.missing.isEmpty then return c
  else throw (.usage topic (.required (c.missing.map Positional.name)))

end Collected

namespace Invocation

def taskOf (topic : Topic) (c : Collected) : Task :=
  match topic with
  | .assemble => .assemble c.input c.output? (c.format.orUsual .bin) c.quiet
  | _ => .list c.input

/-- Understands a command line. The level is that of the environment unless an option sets it. -/
def ofArguments (environment : Option Raw) (arguments : List Raw) :
    Except Interruption Invocation := do
  let c ← Collected.ofArguments .main arguments
  let name := c.command.headD []
  match Topic.ofName? name with
  | none =>
    throw (.usage .main (.invalidChoice Positional.command.name name (subcommands.map Prod.fst)))
  | some topic =>
    let sub ← Collected.ofArguments topic c.command.tail
    let unrecognized := c.unrecognized ++ sub.unrecognized
    if unrecognized.isEmpty then
      return ⟨taskOf topic sub, c.verbose, c.level.orUsual (levelOfEnvironment environment)⟩
    else throw (.usage .main (.unrecognized unrecognized))

end Invocation

end OneBit.Command
