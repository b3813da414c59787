/-!
# Failures

What went wrong, told from the outside in: first what was being done, last the cause.
-/

namespace Lectern

structure Failure where
  causes : List String
deriving DecidableEq

namespace Failure

def of (cause : String) : Failure := ⟨[cause]⟩

def context (text : String) (f : Failure) : Failure := ⟨text :: f.causes⟩

def message (f : Failure) : String := ": ".intercalate f.causes

end Failure

/-- What is found where a file is expected. -/
inductive File where
  | missing
  | unreadable
  | text (content : String)
deriving DecidableEq

end Lectern
