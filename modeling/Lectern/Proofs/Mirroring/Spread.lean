import Lectern.Proofs.Mirroring.Forest

/-!
# How a write spreads

The copies that a write on `s` brings about reach exactly the surfaces below `s`, each of
them once, and each takes over from a source that has been written before it. After a write
has been propagated, every surface below `s` is therefore its old screen with the new screen
of its source copied on it, and the other screens are as they were.
-/

namespace Lectern

open Projection

namespace Links

open Relation

variable {links : Links} {s m p : Surface} {written : List Surface}
  {copies : List (Surface × Surface)} {now : Int} {screens : Screens}

/-- Each copy runs along a link, from a surface written before to one not written before. -/
inductive Carries (links : Links) : List Surface → List (Surface × Surface) → Prop
  | nil {written : List Surface} : Carries links written []
  | cons {written : List Surface} {p m : Surface} {copies : List (Surface × Surface)} :
      p ∈ written → links.Follows m p → m ∉ written →
      Carries links (written ++ [m]) copies → Carries links written ((p, m) :: copies)

theorem Carries.fan {new : List Surface} (hp : p ∈ written) (hnew : new.Nodup)
    (hfollows : ∀ m ∈ new, links.Follows m p) (hfresh : ∀ m ∈ new, m ∉ written)
    (rest : links.Carries (written ++ new) copies) :
    links.Carries written (new.map (p, ·) ++ copies) := by
  induction new generalizing written with
  | nil => simpa using rest
  | cons m new ih =>
    obtain ⟨hm, hnew⟩ := List.nodup_cons.mp hnew
    refine .cons hp (hfollows m (by simp)) (hfresh m (by simp)) ?_
    apply ih (by simp [hp]) hnew (fun k hk => hfollows k (by simp [hk]))
    · intro k hk hmem
      rcases List.mem_append.mp hmem with hw | hkm
      · exact hfresh k (by simp [hk]) hw
      · exact hm (List.mem_singleton.mp hkm ▸ hk)
    · simpa using rest

theorem Carries.not_mem (h : links.Carries written copies) :
    ∀ m ∈ copies.map Prod.snd, m ∉ written := by
  induction h with
  | nil => simp
  | cons _ _ hm _ ih =>
    intro k hk
    rcases List.mem_cons.mp hk with rfl | hk
    · exact hm
    · exact fun hw => ih k hk (List.mem_append_left _ hw)

theorem Carries.nodup (h : links.Carries written copies) : (copies.map Prod.snd).Nodup := by
  induction h with
  | nil => simp
  | cons _ _ _ rest ih =>
    refine List.nodup_cons.mpr ⟨fun hmem => ?_, ih⟩
    exact rest.not_mem _ hmem (by simp)

theorem Carries.follows (h : links.Carries written copies) :
    ∀ c ∈ copies, links.Follows c.2 c.1 := by
  induction h with
  | nil => simp
  | cons _ hm _ _ ih =>
    intro c hc
    rcases List.mem_cons.mp hc with rfl | hc
    · exact hm
    · exact ih c hc

/-- Parents come before children. -/
theorem Carries.source_before (h : links.Carries written copies) {before after : List Surface}
    (split : copies.map Prod.snd = before ++ m :: after) (hm : links.Follows m p) :
    p ∈ written ++ before := by
  induction h generalizing before with
  | nil => simp at split
  | @cons written q k copies hq hk _ _ ih =>
    cases before with
    | nil =>
      obtain ⟨rfl, -⟩ := List.cons.inj split
      rw [List.append_nil, hm.unique hk]
      exact hq
    | cons first before =>
      obtain ⟨rfl, hrest⟩ := List.cons.inj split
      simpa using ih hrest

theorem Carries.below_of_under (h : links.Carries written copies)
    (hw : ∀ p ∈ written, links.Under p s) : ∀ m ∈ copies.map Prod.snd, links.Below m s := by
  induction h with
  | nil => simp
  | cons hp hm _ _ ih =>
    have hb := below_iff.mpr ⟨_, hm, hw _ hp⟩
    intro k hk
    rcases List.mem_cons.mp hk with rfl | hk
    · exact hb
    · refine ih (fun q hq => ?_) k hk
      rcases List.mem_append.mp hq with hq | hq
      · exact hw q hq
      · exact List.mem_singleton.mp hq ▸ hb.under

theorem mem_mirrorsOf : m ∈ links.mirrorsOf s ↔ links.Follows m s := by
  unfold mirrorsOf Follows
  rw [List.mem_filter, beq_iff_eq]
  constructor
  · rintro ⟨-, h⟩
    cases hm : links.get m with
    | free => simp [hm, Link.source?] at h
    | mirror p => simpa [hm, Link.source?] using h
  · intro h
    exact ⟨Surface.mem_all m, by simp [h, Link.source?]⟩

theorem nodup_mirrorsOf (links : Links) (s : Surface) : (links.mirrorsOf s).Nodup :=
  List.Nodup.filter _ (by decide)

theorem carries_spreadFrom (fuel : Nat) : ∀ queue seen : List Surface, (∀ p ∈ queue, p ∈ seen) →
    links.Carries seen (links.spreadFrom fuel queue seen) := by
  induction fuel with
  | zero => intro queue seen _; exact .nil
  | succ fuel ih =>
    intro queue seen hqueue
    cases queue with
    | nil => exact .nil
    | cons p queue =>
      refine .fan (hqueue p (by simp)) ((nodup_mirrorsOf links p).filter _) ?_ ?_ (ih _ _ ?_)
      · intro m hm
        exact mem_mirrorsOf.mp (List.mem_filter.mp hm).1
      · intro m hm
        simpa using (List.mem_filter.mp hm).2
      · intro k hk
        rcases List.mem_append.mp hk with hk | hk
        · exact List.mem_append_left _ (hqueue k (by simp [hk]))
        · exact List.mem_append_right _ hk

/-- Nothing is left behind: whoever mirrors a surface that waits or has been copied to has been
seen or is copied to as well. Each step puts as many surfaces into the queue as it marks as
seen, and no more than all can be seen, so the fuel covers the queue. -/
theorem spreadFrom_closed (fuel : Nat) : ∀ queue seen : List Surface, seen.Nodup →
    Surface.all.length + queue.length ≤ fuel + seen.length →
    ∀ p, p ∈ queue ∨ p ∈ (links.spreadFrom fuel queue seen).map Prod.snd →
    ∀ m, links.Follows m p →
      m ∈ seen ∨ m ∈ (links.spreadFrom fuel queue seen).map Prod.snd := by
  induction fuel with
  | zero =>
    intro queue seen hseen hfuel p hp
    have hlen : seen.length ≤ Surface.all.length := hseen.length_le_card
    have hqueue : queue = [] := List.length_eq_zero_iff.mp (by omega)
    simp [hqueue, spreadFrom] at hp
  | succ fuel ih =>
    intro queue seen hseen hfuel p hp m hm
    cases queue with
    | nil => simp [spreadFrom] at hp
    | cons q queue =>
      set new := (links.mirrorsOf q).filter fun k => !seen.contains k with hnew
      have hstep : links.spreadFrom (fuel + 1) (q :: queue) seen =
          new.map (q, ·) ++ links.spreadFrom fuel (queue ++ new) (seen ++ new) := rfl
      have hfresh : ∀ k ∈ new, k ∉ seen := by
        intro k hk
        simpa using (List.mem_filter.mp hk).2
      have hnodup : (seen ++ new).Nodup := by
        refine List.nodup_append.mpr ⟨hseen, (nodup_mirrorsOf links q).filter _, ?_⟩
        rintro k hk _ hnew rfl
        exact hfresh k hnew hk
      have hrest := ih (queue ++ new) (seen ++ new) hnodup (by
        simp only [List.length_append, List.length_cons] at hfuel ⊢
        omega)
      have htargets : (links.spreadFrom (fuel + 1) (q :: queue) seen).map Prod.snd =
          new ++ (links.spreadFrom fuel (queue ++ new) (seen ++ new)).map Prod.snd := by
        simp [hstep, Function.comp_def]
      rw [htargets] at hp ⊢
      by_cases hpq : p = q
      · subst hpq
        by_cases hms : m ∈ seen
        · exact .inl hms
        · refine .inr (List.mem_append_left _ (List.mem_filter.mpr ⟨mem_mirrorsOf.mpr hm, ?_⟩))
          simpa using hms
      · have hp' : p ∈ queue ++ new ∨
            p ∈ (links.spreadFrom fuel (queue ++ new) (seen ++ new)).map Prod.snd := by
          simp only [List.mem_cons, hpq, false_or, List.mem_append] at hp ⊢
          tauto
        have := hrest p hp' m hm
        simp only [List.mem_append] at this ⊢
        tauto

theorem carries_spread (links : Links) (s : Surface) : links.Carries [s] (links.spread s) :=
  carries_spreadFrom _ [s] [s] (fun _ hp => hp)

theorem nodup_followers (links : Links) (s : Surface) : (links.followers s).Nodup :=
  (carries_spread links s).nodup

theorem not_mem_followers_self (links : Links) (s : Surface) : s ∉ links.followers s :=
  fun h => (carries_spread links s).not_mem s h (by simp)

theorem nodup_tree (links : Links) (s : Surface) : (s :: links.followers s).Nodup :=
  List.nodup_cons.mpr ⟨not_mem_followers_self links s, nodup_followers links s⟩

/-- A write on a surface is carried over to exactly the surfaces below it. -/
theorem Forest.mem_followers (forest : links.Forest) :
    m ∈ links.followers s ↔ links.Below m s := by
  constructor
  · refine (carries_spread links s).below_of_under (fun p hp => ?_) m
    exact List.mem_singleton.mp hp ▸ ReflTransGen.refl
  · intro h
    have closed : ∀ p, p ∈ [s] ∨ p ∈ links.followers s → ∀ m, links.Follows m p →
        m ∈ [s] ∨ m ∈ links.followers s :=
      spreadFrom_closed Surface.all.length [s] [s] (List.nodup_singleton s) le_rfl
    induction h using TransGen.head_induction_on with
    | single hk =>
      rcases closed s (by simp) _ hk with hs | hmem
      · exact absurd (List.mem_singleton.mp hs) (forest.ne_of_below hk.below)
      · exact hmem
    | head hk hb ih =>
      rcases closed _ (.inr ih) _ hk with hs | hmem
      · exact absurd (List.mem_singleton.mp hs) (forest.ne_of_below (TransGen.head hk hb))
      · exact hmem

theorem Forest.mem_tree (forest : links.Forest) :
    m ∈ s :: links.followers s ↔ links.Under m s := by
  rw [List.mem_cons, forest.mem_followers, under_iff]

theorem Forest.mem_spread (forest : links.Forest) (h : links.Follows m p)
    (hp : links.Under p s) : (p, m) ∈ links.spread s := by
  have hm : m ∈ links.followers s := forest.mem_followers.mpr (below_iff.mpr ⟨p, h, hp⟩)
  obtain ⟨⟨q, k⟩, hmem, rfl⟩ := List.mem_map.mp hm
  have hq : links.Follows k q := (carries_spread links s).follows _ hmem
  exact h.unique hq ▸ hmem

/-- Makes some copies one after another. -/
def copyAll (now : Int) (copies : List (Surface × Surface)) (screens : Screens) : Screens :=
  copies.foldl (fun screens pair => screens.copy pair.1 pair.2 now) screens

theorem get_copyAll_of_not_mem (h : m ∉ copies.map Prod.snd) :
    (copyAll now copies screens).get m = screens.get m := by
  induction copies generalizing screens with
  | nil => rfl
  | cons c copies ih =>
    obtain ⟨hc, hrest⟩ : m ≠ c.2 ∧ m ∉ copies.map Prod.snd := by simpa using h
    exact (ih hrest).trans (PerSurface.get_set_of_ne _ hc _)

/-- Nothing is written twice, so what has been copied stays, and so does what it was copied
from. -/
theorem Carries.get_copyAll (h : links.Carries written copies) (hc : (p, m) ∈ copies) :
    (copyAll now copies screens).get m =
      (screens.get m).copy ((copyAll now copies screens).get p) now := by
  induction h generalizing screens with
  | nil => simp at hc
  | @cons written q k copies hq hk hfresh rest ih =>
    have hstep : copyAll now ((q, k) :: copies) screens =
        copyAll now copies (screens.copy q k now) := rfl
    rw [hstep]
    rcases List.mem_cons.mp hc with heq | hc
    · obtain ⟨rfl, rfl⟩ := Prod.mk.inj heq
      have hp : p ∉ copies.map Prod.snd := fun hp => rest.not_mem p hp (by simp [hq])
      have hm : m ∉ copies.map Prod.snd := fun hm => rest.not_mem m hm (by simp)
      have hne : p ≠ m := by
        rintro rfl
        exact hfresh hq
      rw [get_copyAll_of_not_mem hm, get_copyAll_of_not_mem hp]
      simp [Screens.copy, PerSurface.get_set_of_ne _ hne]
    · have hm : m ∉ written ++ [k] := rest.not_mem m (List.mem_map_of_mem hc)
      have hne : m ≠ k := by
        rintro rfl
        exact hm (by simp)
      rw [ih hc]
      simp [Screens.copy, PerSurface.get_set_of_ne _ hne]

theorem get_propagate_set_of_not_mem {screen : Screen} (h : m ∉ s :: links.followers s) :
    (links.propagate s now (screens.set s screen)).get m = screens.get m := by
  obtain ⟨hms, hm⟩ : m ≠ s ∧ m ∉ links.followers s := by simpa using h
  exact (get_copyAll_of_not_mem hm).trans (PerSurface.get_set_of_ne _ hms _)

/-- Only the surfaces below `s` are written. -/
theorem Forest.get_propagate_of_not_below (forest : links.Forest) (h : ¬ links.Below m s) :
    (links.propagate s now screens).get m = screens.get m :=
  get_copyAll_of_not_mem (fun hm => h (forest.mem_followers.mp hm))

/-- Each surface below `s` has its source copied on it, as the source is in the end. -/
theorem Forest.get_propagate_of_follows (forest : links.Forest) (h : links.Follows m p)
    (hp : links.Under p s) :
    (links.propagate s now screens).get m =
      (screens.get m).copy ((links.propagate s now screens).get p) now :=
  (carries_spread links s).get_copyAll (forest.mem_spread h hp)

end Links
end Lectern
