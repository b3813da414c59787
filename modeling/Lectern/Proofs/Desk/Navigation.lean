import Lectern.Proofs.Desk.Operation
import Lectern.Proofs.Desk.Steps
import Lectern.Proofs.StableOrder

/-!
# Going through a plan

What a step of navigation does once its own merge is done. With an enabled live state and a
plan that has items, the cursor is brought within the plan and the item there, in the order
of the plan, is projected on the target. Without them nothing more happens, and neither does
it when the library fails. Step after step the cursor is therefore where the moves take it
between the first and the last item. A cursor of sixty-four bits reaches every item of a plan,
so within one a step never goes around.
-/

namespace Lectern

open Projection

/-- Where a step is meant to take the cursor, in sixty-four bits. -/
def Move.aim (cursor : Int) : Move → Int
  | start _ first => first.getD 0
  | next => wrap64 (cursor + 1)
  | prev => wrap64 (cursor - 1)
  | moveTo position => position

/-- Where a step takes the cursor in a plan of `count` items. -/
def Move.position (count : Nat) (cursor : Int) (move : Move) : Int :=
  min (max (move.aim cursor) 0) (count - 1)

/-- From within a plan the neighbours of the cursor fit. -/
theorem Move.position_of_lt {count : Nat} {cursor : Int} (fits : IsInt64 count)
    (first : 0 ≤ cursor) (last : cursor < count) :
    next.position count cursor = min (cursor + 1) (count - 1) ∧
      prev.position count cursor = max (cursor - 1) 0 := by
  have hcount := isInt64_iff.mp fits
  have hnext : IsInt64 (cursor + 1) := isInt64_iff.mpr (by omega)
  have hprev : IsInt64 (cursor - 1) := isInt64_iff.mpr (by omega)
  simp only [position, aim, wrap64_of_isInt64 hnext, wrap64_of_isInt64 hprev]
  omega

namespace Operation

variable {ω : Type}

def move? : Operation ω → Option Move
  | navigate _ move => some move
  | _ => none

/-- The operation leaves the live state alone, or it is a step through this plan while the
library has it. -/
def Steers (planId : String) (plan : Plan) : Operation ω → Prop
  | merge _ => False
  | navigate sources move => sources.library.plan planId = .ok (some plan) ∧
      ∀ other first, move = .start other first → other = planId
  | _ => True

end Operation

namespace Desk

variable {ω : Type} {d : Desk ω} {sources : Sources} {planId : String} {plan : Plan}
  {move : Move}

theorem zero_le_cursor_mergeLive (d : Desk ω) (patch : Live.Patch) :
    0 ≤ (d.mergeLive patch).2.live.cursor := by
  rw [mergeLive_live]
  exact d.live.zero_le_cursor_merged patch

/-- The cursor of the merge that a step begins with. -/
theorem cursor_mergeLive_patch (d : Desk ω) (move : Move) :
    (d.mergeLive (move.patch d.live)).2.live.cursor = max (move.aim d.live.cursor) 0 := by
  rw [mergeLive_live]
  cases move with
  | start planId first => rfl
  | next => rfl
  | prev =>
    show max (max (wrap64 (d.live.cursor - 1)) 0) 0 = max (wrap64 (d.live.cursor - 1)) 0
    omega
  | moveTo position => rfl

/-- The desk with the cursor brought back within a plan of `count` items. -/
def withinPlan (d : Desk ω) (count : Nat) : Desk ω :=
  if (count : Int) - 1 < d.live.cursor then (d.mergeLive (.moveTo (count - 1))).2 else d

theorem withinPlan_live (d : Desk ω) {count : Nat} (h : 0 < count) :
    (d.withinPlan count).live.enabled = d.live.enabled ∧
      (d.withinPlan count).live.planId = d.live.planId ∧
      (d.withinPlan count).live.cursor = min d.live.cursor (count - 1) := by
  unfold withinPlan
  split_ifs with hlt
  · rw [mergeLive_live]
    refine ⟨rfl, rfl, ?_⟩
    simp only [mergeLive_eq, merging, Live.State.merge, Live.State.merged, Live.Patch.moveTo,
      Option.getD_some]
    omega
  · refine ⟨rfl, rfl, ?_⟩
    omega

theorem itemAtCursor_of_items (found : sources.library.plan planId = .ok (some plan))
    (items : plan.items ≠ []) (h : 0 ≤ d.live.cursor) :
    d.itemAtCursor sources planId d.live =
      (.ok ((d.withinPlan plan.items.length).live,
        plan.ordered[(d.withinPlan plan.items.length).live.cursor.toNat]?),
        d.withinPlan plan.items.length) := by
  have hpos : 0 < plan.items.length := List.length_pos_of_ne_nil items
  have hcursor := (d.withinPlan_live hpos).2.2
  have hmax : max (d.withinPlan plan.items.length).live.cursor 0 =
      (d.withinPlan plan.items.length).live.cursor := by omega
  unfold itemAtCursor
  rw [found]
  dsimp only
  rw [plan.length_ordered]
  by_cases hlt : (plan.items.length : Int) - 1 < d.live.cursor
  · have hwithin : d.withinPlan plan.items.length =
        (d.mergeLive (.moveTo (plan.items.length - 1))).2 := if_pos hlt
    rw [if_pos ⟨by omega, hlt⟩, hwithin, mergeLive_live]
    rw [hwithin, mergeLive_live] at hmax
    rw [hmax]
  · have hwithin : d.withinPlan plan.items.length = d := if_neg hlt
    rw [if_neg fun h => hlt h.2, hwithin]
    rw [hwithin] at hmax
    rw [hmax]

theorem itemAtCursor_of_empty (found : sources.library.plan planId = .ok (some plan))
    (empty : plan.items = []) (live : Live.State) :
    d.itemAtCursor sources planId live = (.ok (live, none), d) := by
  have hlength : plan.ordered.length = 0 := by
    rw [plan.length_ordered, empty, List.length_nil]
  have hordered : plan.ordered = [] := List.eq_nil_of_length_eq_zero hlength
  unfold itemAtCursor
  rw [found]
  simp [hordered]

/-- There is nothing to show: the live state is disabled or without a plan, or the library
does not have the plan, or there is nothing in it. -/
def NothingToShow (live : Live.State) (library : Library) : Prop :=
  live.enabled = false ∨ live.planId = none ∨
    ∃ planId, live.planId = some planId ∧ (library.plan planId = .ok none ∨
      ∃ plan, library.plan planId = .ok (some plan) ∧ plan.items = [])

variable [Windows ω]

@[simp] theorem ensureOpen_live (d : Desk ω) (s : Surface) : (d.ensureOpen s).live = d.live := by
  rcases d.ensureOpen_cases s with h | ⟨windows, h⟩ | ⟨windows, h⟩
  · rw [h]
  · rw [h]
  · rw [h]
    rfl

@[simp] theorem project_live (d : Desk ω) (target : Surface) (slide : Slide) :
    (d.project target slide).2.live = d.live := by
  unfold project
  split
  · rw [edit_live, ensureOpen_live]
  · exact edit_live _ _ _ _

/-- The item at the cursor is projected, and projecting it leaves the live state as it is. -/
theorem projectCursor_of_items (enabled : d.live.enabled = true)
    (set : d.live.planId = some planId) (found : sources.library.plan planId = .ok (some plan))
    (items : plan.items ≠ []) (h : 0 ≤ d.live.cursor) :
    ∃ item outcome after,
      d.projectCursor sources d.live = (.ok ⟨after.live, some outcome⟩, after) ∧
      after.live = (d.withinPlan plan.items.length).live ∧
      plan.ordered[after.live.cursor.toNat]? = some item ∧
      (d.withinPlan plan.items.length).project after.live.target (item.slide sources) =
        (outcome, after) := by
  have hpos : 0 < plan.items.length := List.length_pos_of_ne_nil items
  have hcursor := (d.withinPlan_live hpos).2.2
  have hitem := itemAtCursor_of_items found items h
  generalize d.withinPlan plan.items.length = shown at hcursor hitem ⊢
  have hlt : shown.live.cursor.toNat < plan.ordered.length := by
    rw [plan.length_ordered]
    omega
  have hsome := List.getElem?_eq_getElem hlt
  rw [hsome] at hitem
  generalize plan.ordered[shown.live.cursor.toNat] = item at hsome hitem
  have hlive := shown.project_live shown.live.target (item.slide sources)
  refine ⟨item, (shown.project shown.live.target (item.slide sources)).1,
    (shown.project shown.live.target (item.slide sources)).2, ?_, hlive, ?_, ?_⟩
  · rw [hlive]
    simp [projectCursor, Live.State.activePlan, enabled, set, hitem, projectItem]
  · rw [hlive, hsome]
  · rw [hlive]

theorem projectCursor_of_nothing (h : NothingToShow d.live sources.library) :
    d.projectCursor sources d.live = (.ok ⟨d.live, none⟩, d) := by
  unfold projectCursor Live.State.activePlan
  rcases h with h | h | ⟨planId, h, missing | ⟨plan, found, empty⟩⟩
  · simp [h]
  · simp [h]
  · by_cases enabled : d.live.enabled = true
    · simp [enabled, h, itemAtCursor, missing]
    · simp [enabled]
  · by_cases enabled : d.live.enabled = true
    · simp [enabled, h, itemAtCursor_of_empty found empty]
    · simp [enabled]

theorem projectCursor_of_failure {failure : Failure} (enabled : d.live.enabled = true)
    (set : d.live.planId = some planId) (failed : sources.library.plan planId = .error failure) :
    d.projectCursor sources d.live =
      (.error (failure.context ("failed to load plan " ++ planId)), d) := by
  simp [projectCursor, Live.State.activePlan, enabled, set, itemAtCursor, failed]

/-- What a step of navigation comes to, once its own merge has led to `merged`. -/
structure Shows (d merged : Desk ω) (sources : Sources) (move : Move) : Prop where
  item : ∀ {planId plan}, merged.live.enabled = true → merged.live.planId = some planId →
    sources.library.plan planId = .ok (some plan) → plan.items ≠ [] →
    ∃ item outcome after,
      d.navigate sources move = (.ok ⟨after.live, some outcome⟩, after) ∧
      after.live.cursor = min merged.live.cursor (plan.items.length - 1) ∧
      0 ≤ after.live.cursor ∧ after.live.cursor ≤ plan.items.length - 1 ∧
      StableOrder Plan.Item.order plan.items plan.ordered ∧
      plan.ordered[after.live.cursor.toNat]? = some item ∧
      (merged.withinPlan plan.items.length).project after.live.target (item.slide sources) =
        (outcome, after)
  nothing : NothingToShow merged.live sources.library →
    d.navigate sources move = (.ok ⟨merged.live, none⟩, merged)
  failure : ∀ {planId failure}, merged.live.enabled = true →
    merged.live.planId = some planId → sources.library.plan planId = .error failure →
    d.navigate sources move =
      (.error (failure.context ("failed to load plan " ++ planId)), merged)

theorem navigate_shows (d : Desk ω) (sources : Sources) (move : Move) :
    d.Shows (d.mergeLive (move.patch d.live)).2 sources move := by
  have hnavigate : d.navigate sources move =
      (d.mergeLive (move.patch d.live)).2.projectCursor sources
        (d.mergeLive (move.patch d.live)).2.live := by
    rw [navigate_eq, mergeLive_live]
  have hzero := d.zero_le_cursor_mergeLive (move.patch d.live)
  generalize (d.mergeLive (move.patch d.live)).2 = merged at hnavigate hzero
  constructor
  · intro planId plan enabled set found items
    obtain ⟨item, outcome, after, hproject, hlive, hitem, houtcome⟩ :=
      projectCursor_of_items enabled set found items hzero
    have hpos : 0 < plan.items.length := List.length_pos_of_ne_nil items
    have hcursor := (merged.withinPlan_live hpos).2.2
    rw [← hlive] at hcursor
    refine ⟨item, outcome, after, ?_, hcursor, by omega, by omega, plan.stableOrder_ordered,
      hitem, houtcome⟩
    rw [hnavigate, hproject]
  · intro nothing
    rw [hnavigate, projectCursor_of_nothing nothing]
  · intro planId failure enabled set failed
    rw [hnavigate, projectCursor_of_failure enabled set failed]

/-- The live state goes through a plan and stands at a position of it. -/
def StandsAt (d : Desk ω) (planId : String) (position : Int) : Prop :=
  d.live.enabled = true ∧ d.live.planId = some planId ∧ d.live.cursor = position

theorem navigate_standsAt {merged : Desk ω} (h : (d.mergeLive (move.patch d.live)).2 = merged)
    (enabled : merged.live.enabled = true) (set : merged.live.planId = some planId)
    (found : sources.library.plan planId = .ok (some plan)) (items : plan.items ≠ []) :
    (d.navigate sources move).2.StandsAt planId
      (move.position plan.items.length d.live.cursor) := by
  subst h
  have hzero := d.zero_le_cursor_mergeLive (move.patch d.live)
  have hpos : 0 < plan.items.length := List.length_pos_of_ne_nil items
  obtain ⟨item, outcome, after, hproject, hlive, -, -⟩ :=
    projectCursor_of_items enabled set found items hzero
  obtain ⟨henabled, hset, hcursor⟩ :=
    (d.mergeLive (move.patch d.live)).2.withinPlan_live hpos
  rw [navigate_eq, ← mergeLive_live, hproject]
  unfold StandsAt
  rw [hlive, henabled, hset, hcursor, cursor_mergeLive_patch]
  exact ⟨enabled, set, rfl⟩

theorem goLive_standsAt (d : Desk ω) (first : Option Int)
    (found : sources.library.plan planId = .ok (some plan)) (items : plan.items ≠ []) :
    (d.goLive sources planId first).2.StandsAt planId
      ((Move.start planId first).position plan.items.length d.live.cursor) := by
  have hmerged := d.mergeLive_live ((Move.start planId first).patch d.live)
  have hself : (d.mergeLive ((Move.start planId first).patch d.live)).2 = _ := rfl
  refine navigate_standsAt hself ?_ ?_ found items
  · rw [hmerged]
    rfl
  · rw [hmerged]
    rfl

/-- One step leaves the live state where it is or takes it to the position of its move. -/
theorem StandsAt.perform {position : Int} {operation : Operation ω}
    (h : d.StandsAt planId position) (items : plan.items ≠ [])
    (steers : operation.Steers planId plan) :
    (d.perform operation).StandsAt planId
      ((operation.move?.map fun move => move.position plan.items.length position).getD
        position) := by
  cases operation with
  | edit target e policy => simpa [StandsAt, Desk.perform, Operation.move?] using h
  | setLink s link => simpa [StandsAt, Desk.perform, Operation.move?] using h
  | project target slide => simpa [StandsAt, Desk.perform, Operation.move?] using h
  | projectItem sources target item =>
    simpa [StandsAt, Desk.perform, Operation.move?, Desk.projectItem] using h
  | merge patch => exact steers.elim
  | navigate sources move =>
    obtain ⟨found, same⟩ := steers
    obtain ⟨enabled, set, rfl⟩ := h
    have hmerged := d.mergeLive_live (move.patch d.live)
    refine navigate_standsAt rfl ?_ ?_ found items
    · rw [hmerged]
      cases move with
      | moveTo position => exact enabled
      | _ => rfl
    · rw [hmerged]
      cases move with
      | start other first =>
        rw [same other first rfl]
        rfl
      | _ => exact set
  | windowChanged s isOpen => exact h
  | changeWindows change => exact h
  | observe o => exact h

theorem StandsAt.run {position : Int} (h : d.StandsAt planId position)
    (items : plan.items ≠ []) {operations : List (Operation ω)}
    (steers : ∀ operation ∈ operations, operation.Steers planId plan) :
    (d.run operations).StandsAt planId ((operations.filterMap Operation.move?).foldl
      (fun position move => move.position plan.items.length position) position) := by
  induction operations generalizing d position with
  | nil => exact h
  | cons operation rest ih =>
    have hstep := h.perform items (steers operation List.mem_cons_self)
    have hrest := ih hstep fun other hother => steers other (List.mem_cons_of_mem _ hother)
    cases hmove : operation.move? with
    | none => simpa [hmove] using hrest
    | some move => simpa [hmove] using hrest

/-- Every step shows the item at the cursor it leaves, in the order of the plan, or leaves the
desk as its merge left it. From the start of a plan on, the cursor is where the moves take it
when each is brought back between the first item and the last. That is the next item or the one
before, as far as there is one: a plan has no more items than sixty-four bits can count. -/
theorem navigation_follows_plan (d : Desk ω) (sources : Sources) :
    (∀ move, d.Shows (d.mergeLive (move.patch d.live)).2 sources move) ∧
      (∀ (planId : String) (plan : Plan) (first : Option Int) (operations : List (Operation ω)),
        sources.library.plan planId = .ok (some plan) → plan.items ≠ [] →
        (∀ operation ∈ operations, operation.Steers planId plan) →
        ((d.goLive sources planId first).2.run operations).StandsAt planId
          ((Move.start planId first :: operations.filterMap Operation.move?).foldl
            (fun position move => move.position plan.items.length position)
            d.live.cursor)) ∧
      ∀ (count : Nat) (cursor : Int), IsInt64 count → 0 ≤ cursor → cursor < count →
        Move.next.position count cursor = min (cursor + 1) (count - 1) ∧
          Move.prev.position count cursor = max (cursor - 1) 0 := by
  refine ⟨d.navigate_shows sources, ?_, fun count cursor => Move.position_of_lt⟩
  intro planId plan first operations found items steers
  exact (d.goLive_standsAt first found items).run items steers

/-- A plan of two items, the last one first. -/
def evening : Plan where
  id := "evening"
  title := "Evening"
  items := [⟨"closing", 2, .announcementText, none, some "Good night.", none, none, none⟩,
    ⟨"welcome", 1, .announcementText, none, some "Good evening.", none, none, none⟩]

def eveningSources : Sources where
  library := .ofCatalogue (.ok ⟨[], [evening]⟩)
  bible := ⟨fun _ => .ok none⟩

/-- A start beyond the end, two steps back and one on. -/
theorem navigation_follows_evening :
    eveningSources.library.plan "evening" = .ok (some evening) ∧ evening.items ≠ [] ∧
      ((opening.goLive eveningSources "evening" (some 7)).2.run
        [.navigate eveningSources .prev, .navigate eveningSources .prev,
          .navigate eveningSources .next]).StandsAt "evening" 1 ∧
      Move.next.position 2 0 = 1 ∧ Move.prev.position 2 0 = 0 := by
  have found : eveningSources.library.plan "evening" = .ok (some evening) := by rfl
  have items : evening.items ≠ [] := by simp [evening]
  obtain ⟨-, standsAt, steps⟩ := opening.navigation_follows_plan eveningSources
  refine ⟨found, items, standsAt "evening" evening (some 7) _ found items ?_,
    steps 2 0 (by decide) (by decide) (by decide)⟩
  simp [Operation.Steers, found]

end Desk
end Lectern
