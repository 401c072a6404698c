import Mathlib.Data.List.Basic
import Mathlib.Tactic

/-!
# First-come first-served locks over several resources

Claimants arrive in an order, each asking for a set of resources at once. A claimant waits, holds
all of its resources, or is finished. The queue of a resource is the arrival order restricted to the
waiting claimants that want it.

The first waiting claimant stands at the front of every one of its queues, and nothing stands in
front of a claimant at the front.
-/

namespace FifoLocks

open List Function

universe u v

/-- Claimants in arrival order, what each wants, and which of them wait or hold. -/
structure Claims (ω : Type u) (κ : Type v) where
  arrivals : List ω
  wants : ω → List κ
  waiting : ω → Bool
  holding : ω → Bool

variable {ω : Type u} {κ : Type v} [DecidableEq κ]

namespace Claims

/-- The waiting claimants of a resource, oldest first. -/
def queue (claims : Claims ω κ) (resource : κ) : List ω :=
  claims.arrivals.filter fun claimant =>
    claims.waiting claimant && decide (resource ∈ claims.wants claimant)

def Unheld (claims : Claims ω κ) (resource : κ) : Prop :=
  ∀ claimant, claims.holding claimant = true → resource ∉ claims.wants claimant

/-- A claimant that may be granted: everything it wants is free and it is next everywhere. -/
structure Eligible (claims : Claims ω κ) (claimant : ω) : Prop where
  waiting : claims.waiting claimant = true
  unheld : ∀ resource ∈ claims.wants claimant, claims.Unheld resource
  front : ∀ resource ∈ claims.wants claimant, (claims.queue resource).head? = some claimant

/-- No claimant holds a resource that an earlier waiting claimant wants. -/
def Fair (claims : Claims ω κ) : Prop :=
  ∀ earlier later resource, [earlier, later].Sublist claims.arrivals →
    resource ∈ claims.wants earlier → resource ∈ claims.wants later →
    claims.waiting earlier = true → claims.holding later = false

variable {claims : Claims ω κ} {resource : κ}
variable {claimant : ω}

theorem mem_queue : claimant ∈ claims.queue resource ↔
      claimant ∈ claims.arrivals ∧ claims.waiting claimant = true ∧
        resource ∈ claims.wants claimant := by
  simp [queue]

theorem nodup_queue (distinct : claims.arrivals.Nodup) (resource : κ) :
    (claims.queue resource).Nodup := distinct.filter _

/-- The first waiting claimant in arrival order is at the front of every queue it is in. -/
theorem exists_front (present : ∃ claimant ∈ claims.arrivals, claims.waiting claimant = true) :
    ∃ claimant ∈ claims.arrivals, claims.waiting claimant = true ∧
      ∀ resource ∈ claims.wants claimant, (claims.queue resource).head? = some claimant := by
  obtain ⟨first, isFirst⟩ := Option.isSome_iff_exists.mp (List.find?_isSome.mpr present)
  obtain ⟨waitsFirst, before, after, split, earlier⟩ := List.find?_eq_some_iff_append.mp isFirst
  refine ⟨first, by simp [split], waitsFirst, ?_⟩
  intro resource wanted
  have skipped : before.filter (fun claimant =>
      claims.waiting claimant && decide (resource ∈ claims.wants claimant)) = [] := by
    rw [filter_eq_nil_iff]
    intro other inside
    have passed : claims.waiting other = false := by simpa using earlier other inside
    simp [passed]
  rw [queue, split, filter_append, skipped, nil_append,
    filter_cons_of_pos (by simp [waitsFirst, wanted])]
  rfl

/-- With nothing held, some waiting claimant is eligible. -/
theorem exists_eligible (idle : ∀ claimant, claims.holding claimant = false)
    (present : ∃ claimant ∈ claims.arrivals, claims.waiting claimant = true) :
    ∃ claimant ∈ claims.arrivals, claims.Eligible claimant := by
  obtain ⟨claimant, member, waits, front⟩ := exists_front present
  refine ⟨claimant, member, waits, ?_, front⟩
  intro resource _ holder holds
  rw [idle holder] at holds
  cases holds

/-- Nothing that waits for a resource arrived before the claimant at its front. -/
theorem not_waiting_before_front (distinct : claims.arrivals.Nodup) {earlier later : ω}
    (order : [earlier, later].Sublist claims.arrivals) (wanted : resource ∈ claims.wants earlier)
    (front : (claims.queue resource).head? = some later) : claims.waiting earlier = false := by
  by_contra waits
  rw [Bool.not_eq_false] at waits
  obtain ⟨rest, queued⟩ :
    ∃ rest, claims.queue resource = later :: rest := List.head?_eq_some_iff.mp front
  have laterQueued : later ∈ claims.queue resource := by rw [queued]; exact mem_cons_self
  obtain ⟨_, laterWaits, laterWants⟩ := mem_queue.mp laterQueued
  have kept : [earlier, later].Sublist (claims.queue resource) := by
    have filtered := order.filter fun claimant =>
      claims.waiting claimant && decide (resource ∈ claims.wants claimant)
    simpa [waits, wanted, laterWaits, laterWants, queue] using filtered
  have unique := nodup_queue distinct resource
  rw [queued] at kept unique
  obtain ⟨fresh, _⟩ := nodup_cons.mp unique
  cases kept with
  | cons _ inside => exact fresh (inside.subset (by simp))
  | cons_cons _ inside => exact fresh (inside.subset (by simp))

variable [DecidableEq ω]

/-- A new claimant, waiting or with everything it wants at once. -/
def arrive (claims : Claims ω κ) (fresh : ω) (resources : List κ) (immediate : Bool) :
    Claims ω κ where
  arrivals := claims.arrivals ++ [fresh]
  wants := Function.update claims.wants fresh resources
  waiting := Function.update claims.waiting fresh (!immediate)
  holding := Function.update claims.holding fresh immediate

/-- A waiting claimant gets everything it wants. -/
def grant (claims : Claims ω κ) (claimant : ω) : Claims ω κ :=
  { claims with
    waiting := Function.update claims.waiting claimant false
    holding := Function.update claims.holding claimant true }

/-- A claimant gives up its place or what it holds. -/
def stop (claims : Claims ω κ) (gone : ω) : Claims ω κ :=
  { claims with
    waiting := Function.update claims.waiting gone false
    holding := Function.update claims.holding gone false }

variable {fresh : ω}

theorem queue_arrive (absent : fresh ∉ claims.arrivals) (resources : List κ) (immediate : Bool)
    (resource : κ) :
    (claims.arrive fresh resources immediate).queue resource = claims.queue resource ++
      if immediate = false ∧ resource ∈ resources then [fresh] else [] := by
  have old : claims.arrivals.filter (fun claimant =>
      (claims.arrive fresh resources immediate).waiting claimant &&
        decide (resource ∈ (claims.arrive fresh resources immediate).wants claimant)) =
      claims.queue resource := by
    apply filter_congr
    intro claimant member
    have different : claimant ≠ fresh := fun same => absent (same ▸ member)
    simp [arrive, different]
  change List.filter _ (claims.arrivals ++ [fresh]) = _
  rw [filter_append, old, filter_singleton]
  cases immediate <;> simp [arrive]

variable {gone : ω}

/-- A claimant that no longer waits leaves every queue; the others stay in order. -/
theorem queue_filter_of_update {next : Claims ω κ} (arrivals : next.arrivals = claims.arrivals)
    (wants : next.wants = claims.wants)
    (waiting : next.waiting = Function.update claims.waiting gone false) (resource : κ) :
    next.queue resource = (claims.queue resource).filter (· ≠ gone) := by
  rw [queue, queue, arrivals, wants, waiting, filter_filter]
  apply filter_congr
  intro claimant _
  by_cases same : claimant = gone
  · simp [same]
  · simp [same]

theorem queue_grant (claimant : ω) (resource : κ) :
    (claims.grant claimant).queue resource = (claims.queue resource).filter (· ≠ claimant) := by
  apply queue_filter_of_update <;> rfl

theorem queue_stop (gone : ω) (resource : κ) :
    (claims.stop gone).queue resource = (claims.queue resource).filter (· ≠ gone) := by
  apply queue_filter_of_update <;> rfl

/-- Leaving changes no queue of a resource that was not wanted. -/
theorem queue_filter_of_not_wanted (unwanted : resource ∉ claims.wants gone) :
    (claims.queue resource).filter (· ≠ gone) = claims.queue resource := by
  rw [filter_eq_self]
  intro claimant member
  have different : claimant ≠ gone := fun same => unwanted (same ▸ (mem_queue.mp member).2.2)
  simpa using different

/-- Without its front, a queue is its tail. -/
theorem queue_filter_of_front (distinct : claims.arrivals.Nodup) {front : ω}
    (first : (claims.queue resource).head? = some front) :
    (claims.queue resource).filter (· ≠ front) = (claims.queue resource).tail := by
  obtain ⟨rest, queued⟩ := List.head?_eq_some_iff.mp first
  have unique := nodup_queue distinct resource
  rw [queued] at unique ⊢
  obtain ⟨fresh, _⟩ := nodup_cons.mp unique
  rw [filter_cons_of_neg (by simp), tail_cons, filter_eq_self]
  intro claimant member
  have different : claimant ≠ front := fun same => fresh (same ▸ member)
  simpa using different

open Claims

omit [DecidableEq κ] in
theorem Fair.stop (fair : claims.Fair) (gone : ω) : (claims.stop gone).Fair := by
  intro earlier later resource order first second waits
  by_cases isLater : later = gone
  · simp [Claims.stop, isLater]
  · by_cases isEarlier : earlier = gone
    · simp [Claims.stop, isEarlier] at waits
    · simp only [Claims.stop, update_of_ne isEarlier] at waits
      simpa [Claims.stop, isLater] using fair earlier later resource order first second waits

theorem Fair.grant (fair : claims.Fair) (distinct : claims.arrivals.Nodup)
    (eligible : claims.Eligible claimant) : (claims.grant claimant).Fair := by
  intro earlier later resource order first second waits
  by_cases isEarlier : earlier = claimant
  · simp [Claims.grant, isEarlier] at waits
  · simp only [Claims.grant, update_of_ne isEarlier] at waits
    by_cases isLater : later = claimant
    · subst isLater
      have settled := not_waiting_before_front distinct order first (eligible.front resource second)
      rw [waits] at settled
      cases settled
    · simpa [Claims.grant, isLater] using fair earlier later resource order first second waits

variable {resources : List κ} {immediate : Bool}

/-- A claimant may only take everything at once when no queue it would join has a member. -/
theorem Fair.arrive (fair : claims.Fair) (absent : fresh ∉ claims.arrivals)
    (free : immediate = true → ∀ resource ∈ resources, claims.queue resource = []) :
    (claims.arrive fresh resources immediate).Fair := by
  intro earlier later resource order first second waits
  obtain ⟨front, back, split, inOld, inNew⟩ := sublist_append_iff.mp order
  have earlierOld : earlier ∈ claims.arrivals := by
    rcases append_eq_cons_iff.mp split.symm with ⟨rfl, isBack⟩ | ⟨rest, rfl, -⟩
    · rw [isBack] at inNew
      exact absurd inNew.length_le (by simp)
    · exact inOld.subset mem_cons_self
  have isEarlier : earlier ≠ fresh := fun same => absent (same ▸ earlierOld)
  simp only [Claims.arrive, update_of_ne isEarlier] at first waits
  by_cases isLater : later = fresh
  · subst isLater
    simp only [Claims.arrive, update_self] at second ⊢
    by_contra held
    rw [Bool.not_eq_false] at held
    have member : earlier ∈ claims.queue resource := mem_queue.mpr ⟨earlierOld, waits, first⟩
    rw [free held resource second] at member
    cases member
  · simp only [Claims.arrive, update_of_ne isLater] at second ⊢
    have inside : [earlier, later].Sublist claims.arrivals := by
      rcases append_eq_cons_iff.mp split.symm with ⟨rfl, isBack⟩ | ⟨rest, rfl, isRest⟩
      · rw [isBack] at inNew
        exact absurd inNew.length_le (by simp)
      · rcases append_eq_cons_iff.mp isRest.symm with ⟨rfl, isBack⟩ | ⟨last, rfl, isBack⟩
        · rw [isBack] at inNew
          exact absurd (mem_singleton.mp (inNew.subset mem_cons_self)) isLater
        · obtain ⟨rfl, -⟩ := append_eq_nil_iff.mp isBack.symm
          exact inOld
    exact fair earlier later resource inside first second waits

/-- Who is eligible after a grant was eligible before it. -/
theorem Eligible.of_grant {granted : ω} (eligible : (claims.grant granted).Eligible claimant) :
    claims.Eligible claimant := by
  have different : claimant ≠ granted := by
    rintro rfl
    have waits := eligible.waiting
    simp [grant] at waits
  have waits := eligible.waiting
  simp only [grant, update_of_ne different] at waits
  refine ⟨waits, ?_, ?_⟩
  · intro resource wanted holder holds
    by_cases same : holder = granted
    · exact same ▸ eligible.unheld resource wanted granted (by simp [grant])
    · exact eligible.unheld resource wanted holder (by simpa [grant, same] using holds)
  · intro resource wanted
    have unwanted : resource ∉ claims.wants granted :=
      eligible.unheld resource wanted granted (by simp [grant])
    have front := eligible.front resource wanted
    rwa [queue_grant, queue_filter_of_not_wanted unwanted] at front

/-- Who is eligible after an arrival is the newcomer or was eligible before it. -/
theorem Eligible.of_arrive (absent : fresh ∉ claims.arrivals) (different : claimant ≠ fresh)
    (eligible : (claims.arrive fresh resources immediate).Eligible claimant)
    (idle : claims.holding fresh = false) : claims.Eligible claimant := by
  have waits := eligible.waiting
  have unheld := eligible.unheld
  have front := eligible.front
  simp only [queue_arrive absent] at front
  simp only [arrive, update_of_ne different] at waits unheld front
  refine ⟨waits, ?_, ?_⟩
  · intro resource wanted holder holds
    have isOld : holder ≠ fresh := by
      rintro rfl
      rw [idle] at holds
      cases holds
    have free := unheld resource wanted holder
    simp only [update_of_ne isOld] at free
    exact free holds
  · intro resource wanted
    have first := front resource wanted
    cases queued : claims.queue resource with
    | nil =>
      rw [queued, nil_append] at first
      split at first
      · exact absurd (Option.some.inj first).symm different
      · cases first
    | cons head rest =>
      rw [queued] at first
      exact first

/-- Who becomes eligible when a claimant stops wants something it wanted. -/
theorem Eligible.of_stop (eligible : (claims.stop gone).Eligible claimant) :
    claims.Eligible claimant ∨ ∃ resource ∈ claims.wants gone,
      ((claims.stop gone).queue resource).head? = some claimant := by
  by_cases shared : ∃ resource ∈ claims.wants claimant, resource ∈ claims.wants gone
  · obtain ⟨resource, wanted, departed⟩ := shared
    exact Or.inr ⟨resource, departed, eligible.front resource wanted⟩
  · left
    have unwanted : ∀ resource ∈ claims.wants claimant, resource ∉ claims.wants gone :=
      fun resource wanted departed => shared ⟨resource, wanted, departed⟩
    have different : claimant ≠ gone := by
      rintro rfl
      have waits := eligible.waiting
      simp [stop] at waits
    have waits := eligible.waiting
    simp only [stop, update_of_ne different] at waits
    refine ⟨waits, ?_, ?_⟩
    · intro resource wanted holder holds
      by_cases same : holder = gone
      · exact same ▸ unwanted resource wanted
      · exact eligible.unheld resource wanted holder (by simpa [stop, same] using holds)
    · intro resource wanted
      have front := eligible.front resource wanted
      rwa [queue_stop, queue_filter_of_not_wanted (unwanted resource wanted)] at front

end Claims

end FifoLocks
