import Lectern.Projection.Screen

/-!
# Mirroring

A surface is free or mirrors another one. The links form a forest: a link that would close
a cycle is refused. The root of a surface is where its chain of links ends, and a write on
a surface spreads to everything that mirrors it, parents before children.
-/

namespace Lectern

open Projection

inductive Link where
  | free
  | mirror (source : Surface)
deriving DecidableEq

namespace Link

def source? : Link → Option Surface
  | free => none
  | mirror source => some source

def isMirror (l : Link) : Bool := l.source?.isSome

/-- Why a link is refused. -/
inductive Refusal where
  | selfReference (surface : Surface)
  | cycle (surface source : Surface)
deriving DecidableEq

def Refusal.message : Refusal → String
  | selfReference s => "surface " ++ s.name ++ " cannot mirror itself"
  | cycle s source => "mirroring " ++ s.name ++ " from " ++ source.name ++ " would create a cycle"

end Link

abbrev Links := PerSurface Link

namespace Links

variable (links : Links)

def none : Links := .replicate .free

/-- The surfaces that mirror `source` directly. -/
def mirrorsOf (source : Surface) : List Surface :=
  Surface.all.filter fun s => (links.get s).source? == some source

/-- Follows at most `steps` links. -/
def follow : Nat → Surface → Surface
  | 0, s => s
  | steps + 1, s =>
    match links.get s with
    | .free => s
    | .mirror source => follow steps source

/-- No chain of links is longer than there are surfaces. -/
def root (s : Surface) : Surface := links.follow Surface.all.length s

/-- The chain of links of a surface comes to `goal` or does not end within `steps`. -/
def comesTo (goal : Surface) : Nat → Surface → Bool
  | 0, _ => true
  | steps + 1, s =>
    match links.get s with
    | .free => false
    | .mirror source => source == goal || comesTo goal steps source

/-- The reason to refuse the link, if there is one. -/
def refusal? (s : Surface) : Link → Option Link.Refusal
  | .free => .none
  | .mirror source =>
    if source = s then some (.selfReference s)
    else if links.comesTo s Surface.all.length source then some (.cycle s source)
    else .none

/-- Who copies from whom when the surfaces in `queue` have been written; `seen` are the
surfaces that need no copy any more. -/
def spreadFrom : Nat → List Surface → List Surface → List (Surface × Surface)
  | 0, _, _ => []
  | _, [], _ => []
  | fuel + 1, s :: queue, seen =>
    let new := (links.mirrorsOf s).filter fun m => !seen.contains m
    new.map (s, ·) ++ spreadFrom fuel (queue ++ new) (seen ++ new)

/-- The copies, from and to, that a write on `s` brings about, in their order. -/
def spread (s : Surface) : List (Surface × Surface) :=
  links.spreadFrom Surface.all.length [s] [s]

/-- Carries a write on `s` over to the surfaces that mirror it. -/
def propagate (s : Surface) (now : Int) (screens : Screens) : Screens :=
  (links.spread s).foldl (fun screens pair => screens.copy pair.1 pair.2 now) screens

/-- The surfaces a write on `s` is carried over to. -/
def followers (s : Surface) : List Surface := (links.spread s).map Prod.snd

/-- What linking a surface or releasing it comes to: the links, the screens, and the surfaces
that have been written, in their order. -/
structure Relinked where
  links : Links
  screens : Screens
  written : List Surface

/-- Links a surface or releases it. A new mirror takes over the display of its source at
once, and so do the surfaces that mirror it. -/
def relink (s : Surface) (link : Link) (now : Int) (screens : Screens) :
    Except Link.Refusal Relinked :=
  match links.refusal? s link with
  | some refusal => .error refusal
  | .none =>
    let after : Links := links.set s link
    match link with
    | .free => .ok ⟨after, screens, []⟩
    | .mirror source =>
      .ok ⟨after, after.propagate s now (screens.copy source s now), s :: after.followers s⟩

end Links
end Lectern
