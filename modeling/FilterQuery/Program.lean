import FilterQuery.Log

/-!
# Programs

What a program does is a list of effects, in the order in which they come about, and it ends with a
value or with a failure. A program decides what to do without looking at what becomes of its
effects: it writes to the log whether anyone reads it or not.

Programs are put together in sequence. A failure ends the sequence, and the effects up to it stay.
-/

namespace FilterQuery

/-- Something that a program does. -/
inductive Effect where
  /-- It writes a record to the log. -/
  | log (record : Record)
  /-- It writes to standard output. -/
  | print (text : Text)
  /-- It writes to the error channel. -/
  | complain (text : Text)
  deriving DecidableEq

namespace Effect

/-- What an effect adds to standard output. -/
def stdout : Effect → Text
  | print t => t
  | log _ | complain _ => []

/-- What an effect adds to the error channel, where the log is shown up to a limit. -/
def stderr (limit : Level) : Effect → Text
  | log r => if limit.shows r.level then r.line ++ ['\n'] else []
  | complain t => t
  | print _ => []

end Effect

/-- What is done and what comes of it: a value, or the message of a failure. -/
structure Program (α : Type) where
  effects : List Effect := []
  result : Except Text α

namespace Program

variable {α β γ : Type}

/-- One program and then, unless it fails, another that depends on its value. -/
def bind (p : Program α) (f : α → Program β) : Program β :=
  match p.result with
  | .ok a =>
    let next := f a
    { effects := p.effects ++ next.effects, result := next.result }
  | .error message => { effects := p.effects, result := .error message }

instance : Monad Program where
  pure a := { result := .ok a }
  map f p := { effects := p.effects, result := p.result.map f }
  bind := bind

theorem bind_of_ok {p : Program α} {a : α} (h : p.result = .ok a) (f : α → Program β) :
    p >>= f = { effects := p.effects ++ (f a).effects, result := (f a).result } := by
  show bind p f = _
  rw [bind, h]

theorem bind_of_error {p : Program α} {message : Text} (h : p.result = .error message)
    (f : α → Program β) :
    p >>= f = { effects := p.effects, result := .error message } := by
  show bind p f = _
  rw [bind, h]

/-- How programs are grouped in a sequence makes no difference. -/
theorem bind_assoc (p : Program α) (f : α → Program β) (g : β → Program γ) :
    p >>= f >>= g = p >>= fun a => f a >>= g := by
  cases hp : p.result with
  | error message => rw [bind_of_error hp, bind_of_error rfl, bind_of_error hp]
  | ok a =>
    rw [bind_of_ok hp, bind_of_ok hp]
    cases hf : (f a).result with
    | error message => rw [bind_of_error rfl, bind_of_error hf]
    | ok b => rw [bind_of_ok rfl, bind_of_ok hf, List.append_assoc]

/-- Writes a record to the log. -/
def log (r : Record) : Program Unit := { effects := [.log r], result := .ok () }

/-- Writes a text to standard output. -/
def print (t : Text) : Program Unit := { effects := [.print t], result := .ok () }

/-- Writes a text to the error channel. -/
def complain (t : Text) : Program Unit := { effects := [.complain t], result := .ok () }

/-- Fails with a message. -/
def fail (message : Text) : Program α := { result := .error message }

end Program
end FilterQuery
