import TimedText.Fault
import TimedText.Finding.Verdict
/-!
Attempts: operations that make findings as they go and may stop at a fault. The
findings made before a fault are kept.
-/

namespace TimedText

/-- What comes of an operation that may stop: its value or a fault, and the
findings made until then. -/
structure Attempt (α : Type) where
  result : Except Fault α
  findings : Log

namespace Attempt

variable {α β : Type}

def andThen (first : Attempt α) (next : α → Attempt β) : Attempt β :=
  match first.result with
  | .ok value =>
    let second := next value
    ⟨second.result, first.findings ++ second.findings⟩
  | .error fault => ⟨.error fault, first.findings⟩

instance : Monad Attempt where
  pure value := ⟨.ok value, []⟩
  bind := andThen

def stop (fault : Fault) : Attempt α := ⟨.error fault, []⟩

def note (findings : Log) : Attempt Unit := ⟨.ok (), findings⟩

def judge (verdict : Verdict) : Attempt Bool := ⟨.ok verdict.valid, verdict.findings⟩

def ofExcept (result : Except Fault α) : Attempt α := ⟨result, []⟩

end Attempt

end TimedText
