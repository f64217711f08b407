import Mathlib.Data.List.Nodup
import Mathlib.Data.List.Range
import Scenario.Lock.Table

/-!
# Orderly histories

A thread that cannot enter a lock again draws a ticket. From then on it waits until the lock is
granted to it or its time is up. What happens to all locks is told as the list of these events.

* `LockEvent.line` — those who wait for a lock, in the order of their arrival.
* `LockEvent.Orderly` — histories in which each lock serves its waiters in the order of their
  arrival. It is said of the events alone.
* **`Orderly.granted_in_order`** — in such a history nobody overtakes, and `not_granted` — whoever
  gives up gets nothing.
-/

namespace Scenario

/-- What happens to a thread that has drawn a ticket. -/
inductive LockEvent where
  /-- It draws the ticket. -/
  | queued (w : LockWaiter)
  /-- The lock is granted to it. -/
  | granted (w : LockWaiter)
  /-- Its time is up. -/
  | expired (w : LockWaiter)
  deriving DecidableEq

namespace LockEvent

open List

/-! ### Who waits -/

/-- The waiter that arrives at a lock. -/
def arrival? (key : LockKey) : LockEvent → Option LockWaiter
  | queued w => if w.guard.key = key then some w else none
  | granted _ | expired _ => none

/-- The waiter that waits no longer. -/
def departure? : LockEvent → Option LockWaiter
  | queued _ => none
  | granted w | expired w => some w

/-- The waiter that an event is about. -/
def waiter : LockEvent → LockWaiter
  | queued w | granted w | expired w => w

/-- Those that arrived at a lock, in order. -/
def arrivals (es : List LockEvent) (key : LockKey) : List LockWaiter := es.filterMap (arrival? key)

/-- Those that waited and do so no longer. -/
def departures (es : List LockEvent) : List LockWaiter := es.filterMap departure?

/-- Those that wait for a lock, in the order of their arrival. -/
def line (es : List LockEvent) (key : LockKey) : List LockWaiter :=
  (arrivals es key).filter fun w => w ∉ departures es

variable {es : List LockEvent} {e : LockEvent} {key : LockKey} {v w : LockWaiter}

theorem mem_arrivals : w ∈ arrivals es key ↔ .queued w ∈ es ∧ w.guard.key = key := by
  rw [arrivals, mem_filterMap]
  constructor
  · rintro ⟨e, he, hw⟩
    cases e with
    | queued v =>
      simp only [arrival?, Option.ite_none_right_eq_some, Option.some.injEq] at hw
      obtain ⟨hkey, rfl⟩ := hw
      exact ⟨he, hkey⟩
    | granted v => cases hw
    | expired v => cases hw
  · rintro ⟨hw, rfl⟩
    exact ⟨_, hw, if_pos rfl⟩

theorem mem_departures : w ∈ departures es ↔ .granted w ∈ es ∨ .expired w ∈ es := by
  rw [departures, mem_filterMap]
  constructor
  · rintro ⟨e, he, hw⟩
    cases e with
    | queued v => cases hw
    | granted v =>
      cases hw
      exact .inl he
    | expired v =>
      cases hw
      exact .inr he
  · rintro (hw | hw)
    · exact ⟨_, hw, rfl⟩
    · exact ⟨_, hw, rfl⟩

theorem mem_line : w ∈ line es key ↔ w ∈ arrivals es key ∧ w ∉ departures es := by
  rw [line, mem_filter, decide_eq_true_eq]

theorem arrivals_concat :
    arrivals (es ++ [e]) key = arrivals es key ++ (e.arrival? key).toList := by
  rw [arrivals, filterMap_append, filterMap_cons]
  cases e.arrival? key <;> rfl

theorem departures_concat : departures (es ++ [e]) = departures es ++ e.departure?.toList := by
  rw [departures, filterMap_append, filterMap_cons]
  cases e.departure? <;> rfl

theorem arrival?_of_departure (he : e.departure? = some w) : e.arrival? key = none := by
  cases e with
  | queued v => cases he
  | granted v => rfl
  | expired v => rfl

theorem line_queued (hw : w ∉ departures es) :
    line (es ++ [.queued w]) key = line es key ++ if w.guard.key = key then [w] else [] := by
  have hsame : departures (es ++ [.queued w]) = departures es :=
    departures_concat.trans (append_nil _)
  rw [line, hsame, arrivals_concat, filter_append, arrival?]
  split
  · rw [Option.toList_some, filter_singleton, decide_eq_true hw]
    rfl
  · rfl

/-- Whoever departs leaves the order of the others as it is. -/
theorem line_departed (he : e.departure? = some w) :
    line (es ++ [e]) key = (line es key).filter (· ≠ w) := by
  rw [line, arrivals_concat, departures_concat, arrival?_of_departure he, he, line, filter_filter,
    Option.toList_none, append_nil]
  refine filter_congr fun v _ => ?_
  simp [and_comm]

/-- What happens at other locks is no matter for a line. -/
theorem line_aside {es' : List LockEvent} (h : ∀ e ∈ es', e.waiter.guard.key ≠ key) :
    arrivals (es ++ es') key = arrivals es key ∧ line (es ++ es') key = line es key := by
  have harrivals : arrivals (es ++ es') key = arrivals es key := by
    have hnone : arrivals es' key = [] := by
      refine eq_nil_iff_forall_not_mem.2 fun w hw => ?_
      obtain ⟨hqueued, hkey⟩ := mem_arrivals.1 hw
      exact h _ hqueued hkey
    rw [arrivals, filterMap_append]
    exact (congrArg _ hnone).trans (append_nil _)
  refine ⟨harrivals, ?_⟩
  rw [line, harrivals]
  refine filter_congr fun w hw => decide_eq_decide.2 (not_congr ?_)
  rw [mem_departures, mem_departures, mem_append, mem_append]
  have hkey := (mem_arrivals.1 hw).2
  have hgranted : .granted w ∉ es' := fun hmem => h _ hmem hkey
  have hexpired : .expired w ∉ es' := fun hmem => h _ hmem hkey
  simp only [hgranted, hexpired, or_false]

/-! ### First come, first served -/

/-- Histories in which each lock serves its waiters in the order of their arrival: tickets are
drawn in order, a lock is granted to the first who waits for it, and only those who wait give up.
Those who wait for one name wait for one lock. -/
inductive Orderly : List LockEvent → Prop where
  | nil : Orderly []
  | queued {es : List LockEvent} {w : LockWaiter} : Orderly es →
      w.ticket = (arrivals es w.guard.key).length →
      (∀ key, ∀ v ∈ line es key, v.guard.name = w.guard.name → key = w.guard.key) →
      Orderly (es ++ [.queued w])
  | granted {es : List LockEvent} {w : LockWaiter} : Orderly es →
      (line es w.guard.key).head? = some w → Orderly (es ++ [.granted w])
  | expired {es : List LockEvent} {w : LockWaiter} : Orderly es →
      w ∈ line es w.guard.key → Orderly (es ++ [.expired w])

theorem pair_sublist_concat {α : Type} {a b c : α} {l : List α} :
    [a, b] <+ l ++ [c] ↔ [a, b] <+ l ∨ a ∈ l ∧ b = c := by
  constructor
  · intro h
    obtain ⟨l₁, l₂, heq, h₁, h₂⟩ := sublist_append_iff.1 h
    obtain rfl | rfl := sublist_singleton.1 h₂
    · rw [append_nil] at heq
      exact .inl (heq ▸ h₁)
    · have hsplit : [a] ++ [b] = l₁ ++ [c] := heq
      obtain ⟨rfl, hbc⟩ := append_inj' hsplit rfl
      exact .inr ⟨singleton_sublist.1 h₁, List.singleton_inj.1 hbc⟩
  · rintro (h | ⟨h, rfl⟩)
    · exact h.trans (sublist_append_left ..)
    · exact (singleton_sublist.2 h).append (Sublist.refl [b])

namespace Orderly

theorem tickets (h : Orderly es) (key : LockKey) :
    (arrivals es key).map LockWaiter.ticket = range (arrivals es key).length := by
  induction h with
  | nil => rfl
  | @queued es w _ hticket _ ih =>
    rw [arrivals_concat, arrival?]
    split
    · subst key
      rw [Option.toList_some, map_append, ih, length_append, length_singleton, range_succ,
        ← hticket]
      rfl
    · simpa using ih
  | granted _ _ ih => simpa [arrivals_concat, arrival?] using ih
  | expired _ _ ih => simpa [arrivals_concat, arrival?] using ih

theorem nodup_arrivals (h : Orderly es) (key : LockKey) : (arrivals es key).Nodup :=
  Nodup.of_map LockWaiter.ticket (h.tickets key ▸ nodup_range)

theorem nodup_line (h : Orderly es) (key : LockKey) : (line es key).Nodup :=
  (h.nodup_arrivals key).filter _

/-- The tickets in a line grow, and all of them have been drawn. -/
theorem line_tickets (h : Orderly es) (key : LockKey) :
    ((line es key).map LockWaiter.ticket).Pairwise (· < ·) ∧
      ∀ ticket ∈ (line es key).map LockWaiter.ticket, ticket < (arrivals es key).length := by
  have hsub : (line es key).map LockWaiter.ticket <+ range (arrivals es key).length :=
    h.tickets key ▸ filter_sublist.map LockWaiter.ticket
  exact ⟨pairwise_lt_range.sublist hsub, fun ticket hmem => mem_range.1 (hsub.mem hmem)⟩

/-- A ticket that is drawn has not been drawn before. -/
theorem not_queued (h : Orderly es) (hw : w.ticket = (arrivals es w.guard.key).length) :
    .queued w ∉ es := by
  intro hmem
  have hticket : w.ticket ∈ (arrivals es w.guard.key).map LockWaiter.ticket :=
    mem_map_of_mem (mem_arrivals.2 ⟨hmem, rfl⟩)
  rw [h.tickets, mem_range] at hticket
  exact Nat.ne_of_lt hticket hw

/-- Only those who arrived depart. -/
theorem queued_of_departed (h : Orderly es) (hw : w ∈ departures es) : .queued w ∈ es := by
  induction h with
  | nil => cases hw
  | queued _ _ _ ih =>
    rw [departures_concat, departure?, Option.toList_none, append_nil] at hw
    exact mem_append_left _ (ih hw)
  | @granted es v _ hhead ih =>
    rw [departures_concat, departure?, Option.toList_some, mem_append, mem_singleton] at hw
    refine mem_append_left _ (hw.elim ih ?_)
    rintro rfl
    exact (mem_arrivals.1 (mem_line.1 (mem_of_head? hhead)).1).1
  | @expired es v _ hline ih =>
    rw [departures_concat, departure?, Option.toList_some, mem_append, mem_singleton] at hw
    refine mem_append_left _ (hw.elim ih ?_)
    rintro rfl
    exact (mem_arrivals.1 (mem_line.1 hline).1).1

theorem not_departed (h : Orderly es) (hw : w.ticket = (arrivals es w.guard.key).length) :
    w ∉ departures es := fun hdep => h.not_queued hw (h.queued_of_departed hdep)

/-- Nothing happens twice. -/
theorem nodup (h : Orderly es) : es.Nodup := by
  have hnew : ∀ {es : List LockEvent} {e : LockEvent}, es.Nodup → e ∉ es → (es ++ [e]).Nodup :=
    fun hes he => nodup_append.2 ⟨hes, nodup_singleton _, by
      rintro a ha b hb rfl
      exact he (mem_singleton.1 hb ▸ ha)⟩
  induction h with
  | nil => exact nodup_nil
  | queued h hticket _ ih => exact hnew ih (h.not_queued hticket)
  | granted _ hhead ih =>
    exact hnew ih fun hmem => (mem_line.1 (mem_of_head? hhead)).2 (mem_departures.2 (.inl hmem))
  | expired _ hline ih =>
    exact hnew ih fun hmem => (mem_line.1 hline).2 (mem_departures.2 (.inr hmem))

/-- Whoever gave up is granted nothing, neither before nor afterwards. -/
theorem not_granted (h : Orderly es) (hw : .expired w ∈ es) : .granted w ∉ es := by
  induction h with
  | nil => cases hw
  | queued _ _ _ ih =>
    simp only [mem_append, mem_singleton, reduceCtorEq, or_false] at hw ⊢
    exact ih hw
  | @granted es v _ hhead ih =>
    simp only [mem_append, mem_singleton, reduceCtorEq, or_false, granted.injEq, not_or] at hw ⊢
    refine ⟨ih hw, ?_⟩
    rintro rfl
    exact (mem_line.1 (mem_of_head? hhead)).2 (mem_departures.2 (.inr hw))
  | @expired es v _ hline ih =>
    simp only [mem_append, mem_singleton, reduceCtorEq, or_false, expired.injEq] at hw ⊢
    refine hw.elim ih ?_
    rintro rfl hmem
    exact (mem_line.1 hline).2 (mem_departures.2 (.inl hmem))

/-- Those who wait for one name wait for one lock. -/
theorem key_eq (h : Orderly es) {key key' : LockKey} (hv : v ∈ line es key) (hw : w ∈ line es key')
    (hname : v.guard.name = w.guard.name) : key = key' := by
  induction h with
  | nil => cases hv
  | @queued es u h hticket hone ih =>
    rw [line_queued (h.not_departed hticket), mem_append] at hv hw
    rcases hv with hv | hv <;> rcases hw with hw | hw
    · exact ih hv hw
    · obtain ⟨hkey, hw⟩ := (mem_ite_nil_right ..).1 hw
      obtain rfl := mem_singleton.1 hw
      exact (hone _ v hv hname).trans hkey
    · obtain ⟨hkey, hv⟩ := (mem_ite_nil_right ..).1 hv
      obtain rfl := mem_singleton.1 hv
      exact hkey.symm.trans (hone _ w hw hname.symm).symm
    · exact ((mem_ite_nil_right ..).1 hv).1.symm.trans ((mem_ite_nil_right ..).1 hw).1
  | granted _ _ ih =>
    rw [line_departed rfl, mem_filter] at hv hw
    exact ih hv.1 hw.1
  | expired _ _ ih =>
    rw [line_departed rfl, mem_filter] at hv hw
    exact ih hv.1 hw.1

/-- Whoever waits stands in front of those who arrive for the same name later. -/
theorem not_before_head (h : Orderly es) (hname : v.guard.name = w.guard.name)
    (hqueued : [.queued v, .queued w] <+ es) (hwaits : v ∉ departures es) :
    (line es w.guard.key).head? ≠ some w := by
  intro hhead
  have hv : v ∈ line es v.guard.key :=
    mem_line.2 ⟨mem_arrivals.2 ⟨hqueued.mem (by simp), rfl⟩, hwaits⟩
  have hw : w ∈ line es w.guard.key := mem_of_head? hhead
  have hkey : v.guard.key = w.guard.key := h.key_eq hv hw hname
  have hpair : [v, w] <+ line es w.guard.key := by
    have harrived : [v, w] <+ arrivals es w.guard.key := by
      simpa [arrivals, arrival?, hkey] using hqueued.filterMap (arrival? w.guard.key)
    simpa [line, hwaits, (mem_line.1 hw).2] using
      harrived.filter fun u => decide (u ∉ departures es)
  obtain ⟨others, hline⟩ := head?_eq_some_iff.1 hhead
  have hnodup := h.nodup_line w.guard.key
  rw [hline] at hpair hnodup
  -- `w` stands first and once, so nobody is in front of it
  have hlater : w ∈ others := by
    cases hpair with
    | cons _ hpair => exact hpair.mem (by simp)
    | cons_cons _ hpair => exact hpair.mem (by simp)
  exact (nodup_cons.1 hnodup).1 hlater

/-- **First come, first served.** Of two who arrive for one name, the first of whom does not give
up, the second is granted the lock only after the first. -/
theorem granted_in_order (h : Orderly es) (hname : v.guard.name = w.guard.name)
    (hqueued : [.queued v, .queued w] <+ es) (hstays : .expired v ∉ es)
    (hgranted : .granted w ∈ es) : [.granted v, .granted w] <+ es := by
  induction h with
  | nil => cases hgranted
  | @queued es u h hticket _ ih =>
    simp only [mem_append, mem_singleton, reduceCtorEq, or_false] at hstays hgranted
    have hnew := h.not_queued hticket
    have hold : .queued w ∈ es := h.queued_of_departed (mem_departures.2 (.inl hgranted))
    obtain hpair | ⟨-, heq⟩ := pair_sublist_concat.1 hqueued
    · exact (ih hpair hstays hgranted).trans (sublist_append_left ..)
    · cases heq
      exact absurd hold hnew
  | @granted es u h hhead ih =>
    simp only [mem_append, mem_singleton, reduceCtorEq, or_false, granted.injEq] at hstays hgranted
    obtain hpair | ⟨-, heq⟩ := pair_sublist_concat.1 hqueued
    · rcases hgranted with hgranted | rfl
      · exact (ih hpair hstays hgranted).trans (sublist_append_left ..)
      · refine pair_sublist_concat.2 (.inr ⟨?_, rfl⟩)
        by_contra hwaits
        exact h.not_before_head hname hpair (by simp [mem_departures, hwaits, hstays]) hhead
    · cases heq
  | @expired es u h _ ih =>
    simp only [mem_append, mem_singleton, reduceCtorEq, or_false, not_or] at hstays hgranted
    obtain hpair | ⟨-, heq⟩ := pair_sublist_concat.1 hqueued
    · exact (ih hpair hstays.1 hgranted).trans (sublist_append_left ..)
    · cases heq

end Orderly

end LockEvent

end Scenario
