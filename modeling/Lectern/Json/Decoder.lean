import Lectern.Json.Node

/-!
# Decoding records

A decoder makes a domain value of a node. Records may be written as objects, where unknown
fields are passed over and known ones may not occur twice, or as lists of their fields in
order. A variant type is told by a tag among its fields; what stands beside the tag is held
back until the tag is known, and a value that is held back has to be readable as a whole.
-/

namespace Lectern
namespace Json

/-- How a node is come by: how many more lists and objects may open, and whether it was held
back. -/
structure Access where
  depth : Nat
  held : Bool

namespace Access

def top : Access := ⟨maxDepth, false⟩

/-- The access to the parts of a list or an object. What was held back has been measured
already. -/
def enter (a : Access) : Option Access :=
  if a.held then some a
  else
    match a.depth with
    | 0 => none
    | depth + 1 => some ⟨depth, false⟩

def hold (a : Access) : Access := { a with held := true }

/-- A node can be held back when it can be read as a value. -/
def holds (a : Access) (n : Node) : Bool := a.held || (n.value? a.depth).isSome

end Access

abbrev Decoder (α : Type) := Access → Node → Option α

namespace Decoder

variable {α β : Type}

def map (f : α → β) (d : Decoder α) : Decoder β := fun a n => (d a n).map f

def text : Decoder String
  | _, .text s => s
  | _, _ => none

def bool : Decoder Bool
  | _, .bool b => some b
  | _, _ => none

/-- An integer between the bounds, both included. -/
def int (least greatest : Int) : Decoder Int
  | _, .number n =>
    match n.value? with
    | some (.int i) => if least ≤ i ∧ i ≤ greatest then some i else none
    | _ => none
  | _, _ => none

def int64 : Decoder Int := int (-(1 <<< 63 : Nat)) ((1 <<< 63 : Nat) - 1)

def nat (bits : Nat) : Decoder Nat := map Int.toNat (int 0 ((1 <<< bits : Nat) - 1))

def float : Decoder Binary64
  | _, .number n =>
    match n.value? with
    | some (.int i) => some (Binary64.ofInt i)
    | some (.float x) => some x
    | _ => none
  | _, _ => none

def optional (d : Decoder α) : Decoder (Option α)
  | _, .null => some none
  | a, n => (d a n).map some

def list (d : Decoder α) : Decoder (List α)
  | a, .list items => a.enter.bind fun a => items.mapM (d a)
  | _, _ => none

/-- Any value. What was held back is known to be readable. -/
def value : Decoder Value := fun a n => n.value? (if a.held then maxDepth else a.depth)

/-- One of finitely many names, alone or as the only key of an object that says nothing
else. -/
def choice (names : List (String × α)) : Decoder α
  | _, .text s => s.bind (List.lookup · names)
  | a, .object [(key, .null)] => a.enter.bind fun _ => key.bind (List.lookup · names)
  | a, .object [(key, .object [])] => if a.held then key.bind (List.lookup · names) else none
  | _, _ => none

/-- The name of a variant. A name that was held back may be given by its position. -/
def variantName (names : List (String × α)) : Decoder α
  | _, .text s => s.bind (List.lookup · names)
  | a, .number n =>
    match a.held, n.value? with
    | true, some (.int i) => if 0 ≤ i then names[i.toNat]?.map Prod.snd else none
    | _, _ => none
  | _, _ => none

end Decoder

/-- The fields of an object, and how they are come by. -/
structure Fields where
  access : Access
  entries : List (String × Node)

namespace Fields

variable {α : Type}

def ofObject : Decoder Fields
  | a, .object fields => do
    let a ← a.enter
    let entries ← fields.mapM fun field => field.1.map (·, field.2)
    return ⟨a, entries⟩
  | _, _ => none

/-- The fields with these names, none of which may occur twice. -/
def only (names : List String) (f : Fields) : Option Fields :=
  let known := f.entries.filter fun entry => names.contains entry.1
  if (known.map Prod.fst).Nodup then some { f with entries := known } else none

/-- The same fields held back. -/
def hold (f : Fields) : Option Fields :=
  if f.entries.all fun entry => f.access.holds entry.2 then some { f with access := f.access.hold }
  else none

/-- The only field of a name, if there is one, and the fields of other names. -/
def take (name : String) (f : Fields) : Option (Option Node × Fields) :=
  let rest := { f with entries := f.entries.filter fun entry => entry.1 != name }
  match f.entries.filter fun entry => entry.1 == name with
  | [] => some (none, rest)
  | [entry] => some (some entry.2, rest)
  | _ => none

/-- A record: an object, or the list of its fields of which the first `least` are given. -/
def record (names : List String) (least : Nat) : Decoder Fields
  | a, .list items =>
    if least ≤ items.length ∧ items.length ≤ names.length then
      a.enter.map fun a => ⟨a, names.zip items⟩
    else none
  | a, n => (ofObject a n).bind (only names)

def required (f : Fields) (name : String) (d : Decoder α) : Option α :=
  (f.entries.lookup name).bind (d f.access)

def defaulted (f : Fields) (name : String) (d : Decoder α) (default : α) : Option α :=
  match f.entries.lookup name with
  | some n => d f.access n
  | none => some default

def optional (f : Fields) (name : String) (d : Decoder α) : Option (Option α) :=
  f.defaulted name (Decoder.optional d) none

/-- What stands beside the name of a variant. -/
structure Carried where
  access : Access
  node : Node

/-- The variant named by the field `tag`, and the other fields held back. In a list the name
comes first, and the fields follow in order. -/
def tagged (tag : String) (names : List (String × α)) : Decoder (α × Carried)
  | a, .list (n :: rest) => do
    let a ← a.enter
    let variant ← Decoder.variantName names a n
    if rest.all a.holds then return (variant, ⟨a.hold, .list rest⟩) else none
  | a, n => do
    let f ← ofObject a n
    let (name, rest) ← f.take tag
    let variant ← name.bind (Decoder.variantName names f.access)
    let rest ← rest.hold
    return (variant, ⟨rest.access, .object (rest.entries.map fun entry => (some entry.1, entry.2))⟩)

/-- The variant named by the field `tag`, and what it carries in the field `carried`. It is
held back when it stands before the name. -/
def beside (tag carried : String) (names : List (String × α)) (f : Fields) :
    Option (α × Option Carried) := do
  let f ← f.only [tag, carried]
  match f.entries with
  | [(only, n)] => if only = tag then return (← Decoder.choice names f.access n, none) else none
  | [(first, n), (_, m)] =>
    if first = tag then return (← Decoder.choice names f.access n, some ⟨f.access, m⟩)
    else if f.access.holds n then
      return (← Decoder.choice names f.access m, some ⟨f.access.hold, n⟩)
    else none
  | _ => none

/-- As `beside`, of a node that may also be the list of the name and what is carried. -/
def tagBeside (tag carried : String) (names : List (String × α)) :
    Decoder (α × Option Carried)
  | a, .list [n, m] => do
    let a ← a.enter
    return (← Decoder.variantName names a n, some ⟨a, m⟩)
  | a, n => (ofObject a n).bind (beside tag carried names)

namespace Carried

def decode (d : Decoder α) (c : Carried) : Option α := d c.access c.node

/-- No field is known, and a list has none. -/
def noFields (c : Carried) : Option Unit := (c.decode (record [] 0)).map fun _ => ()

/-- A variant without contents carries nothing or null. -/
def nothing : Option Carried → Option Unit
  | none => some ()
  | some ⟨_, .null⟩ => some ()
  | some _ => none

end Carried
end Fields

/-- What a decoder makes of a document. -/
def decode? {α : Type} (d : Decoder α) (cs : List Char) : Option α :=
  (Node.read? cs).bind (d .top)

end Json
end Lectern
