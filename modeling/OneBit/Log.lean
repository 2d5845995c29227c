import OneBit.Diagnostic
/-!
# The log

What the library does is recorded as events. Each event has a level, and a message for the reader
of the log. An operation that records events gives them beside its value.
-/

namespace OneBit

inductive Level
  | debug | info | warning | error
  deriving DecidableEq, Repr

namespace Level

def all : List Level := [debug, info, warning, error]

def name : Level → String
  | debug => "debug"
  | info => "info"
  | warning => "warning"
  | error => "error"

/-- The weight of the level: a log that is set to a level shows the events of no less weight. -/
def weight : Level → Nat
  | debug => 10
  | info => 20
  | warning => 30
  | error => 40

def ofName? (name : String) : Option Level := all.find? fun level => level.name = name

end Level

inductive Component
  | reader | image | loader | command
  deriving DecidableEq, Repr

inductive Event
  | truncated (diagnostic : Diagnostic)
  | parsed (words comments : Nat)
  | packed (words bytes : Nat)
  /-- The last bits of an image were too few for a word. -/
  | discarded (bits : Nat)
  | assembled (words comments : Nat) (path : String)
  deriving DecidableEq, Repr

namespace Event

def level : Event → Level
  | truncated _ => .warning
  | parsed .. => .debug
  | packed .. => .debug
  | discarded _ => .debug
  | assembled .. => .info

def component : Event → Component
  | truncated ⟨.entry _, _⟩ => .loader
  | truncated _ => .reader
  | parsed .. => .reader
  | packed .. => .image
  | discarded _ => .image
  | assembled .. => .command

def message : Event → String
  | truncated diagnostic => diagnostic.render
  | parsed words comments =>
    let nodes := words + comments
    s!"Parsed {nodes} nodes ({words} words, {comments} comments)"
  | packed words bytes => s!"Serialized {words} words into {bytes} bytes"
  | discarded bits => s!"Discarded {bits} trailing pad bits"
  | assembled words comments path => s!"Assembled {words} words ({comments} comments) into {path}"

end Event

/-- A value with the events that were recorded on the way to it. -/
structure Logged (α : Type) where
  value : α
  events : List Event := []

instance : Monad Logged where
  pure value := { value }
  bind first next :=
    let second := next first.value
    { value := second.value, events := first.events ++ second.events }

@[simp] theorem Logged.value_pure {α : Type} (value : α) : (pure value : Logged α).value = value :=
  rfl

@[simp] theorem Logged.value_bind {α β : Type} (first : Logged α) (next : α → Logged β) :
    (first >>= next).value = (next first.value).value := rfl

def Logged.record (events : List Event) : Logged Unit := ⟨(), events⟩

end OneBit
