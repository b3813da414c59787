import Lectern.Text.Blank
import Lectern.Text.Quoted

/-!
# Surfaces

The three surfaces that content is projected on, and tables with one entry for each.
-/

namespace Lectern

inductive Surface where
  | a
  | b
  | c
deriving DecidableEq

namespace Surface

instance : Inhabited Surface := ⟨a⟩

def all : List Surface := [a, b, c]

def index : Surface → Nat
  | a => 0
  | b => 1
  | c => 2

def name : Surface → String
  | a => "A"
  | b => "B"
  | c => "C"

/-- A text that names no surface. -/
structure Unknown where
  text : String

def Unknown.message (e : Unknown) : String := "invalid surface key: " ++ Text.quoted e.text

/-- Blanks around the name and the case of its letter do not matter. -/
def parse (s : String) : Except Unknown Surface :=
  match (Text.trimChars s.toList).map Char.toUpper with
  | ['A'] => .ok a
  | ['B'] => .ok b
  | ['C'] => .ok c
  | _ => .error ⟨s⟩

/-- Whatever names no surface means the main surface. -/
def parseOrMain (s : String) : Surface :=
  match parse s with
  | .ok surface => surface
  | .error _ => a

theorem mem_all (s : Surface) : s ∈ all := by cases s <;> decide

@[simp] theorem parse_name (s : Surface) : parse s.name = .ok s := by
  cases s <;> rfl

end Surface

/-- One entry for each surface. -/
structure PerSurface (α : Type) where
  a : α
  b : α
  c : α
deriving DecidableEq

namespace PerSurface

variable {α β : Type}

def get (t : PerSurface α) : Surface → α
  | .a => t.a
  | .b => t.b
  | .c => t.c

def set (t : PerSurface α) (s : Surface) (x : α) : PerSurface α :=
  match s with
  | .a => { t with a := x }
  | .b => { t with b := x }
  | .c => { t with c := x }

def replicate (x : α) : PerSurface α := ⟨x, x, x⟩

def map (f : α → β) (t : PerSurface α) : PerSurface β := ⟨f t.a, f t.b, f t.c⟩

def toList (t : PerSurface α) : List α := [t.a, t.b, t.c]

@[simp] theorem get_set_self (t : PerSurface α) (s : Surface) (x : α) :
    (t.set s x).get s = x := by
  cases s <;> rfl

theorem get_set_of_ne (t : PerSurface α) {s r : Surface} (h : r ≠ s) (x : α) :
    (t.set s x).get r = t.get r := by
  cases s <;> cases r <;> first | rfl | exact absurd rfl h

@[simp] theorem get_replicate (x : α) (s : Surface) : (replicate x).get s = x := by
  cases s <;> rfl

@[simp] theorem get_map (f : α → β) (t : PerSurface α) (s : Surface) :
    (t.map f).get s = f (t.get s) := by
  cases s <;> rfl

@[ext] theorem ext_get {t u : PerSurface α} (h : ∀ s, t.get s = u.get s) : t = u := by
  cases t; cases u
  have ha := h .a
  have hb := h .b
  have hc := h .c
  simp_all [get]

end PerSurface
end Lectern
