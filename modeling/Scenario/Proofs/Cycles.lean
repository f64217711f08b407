import Scenario.Proofs.Loading
import Mathlib.Data.List.Nodup
import Mathlib.Data.List.Perm.Subperm
import Mathlib.Logic.Relation

/-!
# Resources that refer to each other in circles

Resources refer to each other in any way whatever. Whether asking for one of them succeeds is
decided by the documents that can be reached from it, each taken by itself: **`load_succeeds_iff`**.

* If all of them are sound, asking succeeds: what is in progress is not parsed again, and there are
  no more resources than the depth allows for (`parseIn_succeeds`).
* If asking succeeds, all of them are sound. A resource that is in progress is taken for granted, so
  at first this is only known of what can be reached without passing through one in progress
  (`Clear`). When a resource is finished, the last time that a path passes through it settles the
  rest (`Clear.of_finished`).
-/

namespace Scenario

namespace World

/-- A resource is registered. -/
def Registered (w : World) (r : Resource) : Prop := ∃ name, w.locator.get? name = some r

/-- All registered resources exist and have paths of their own. -/
structure Orderly (w : World) : Prop where
  distinct : (w.locator.map fun e => e.2.path).Nodup
  present : ∀ e ∈ w.locator, w.storage.isPresent e.2 = true

variable {w : World} {r r' : Resource}

theorem Registered.mem (h : w.Registered r) : ∃ e ∈ w.locator, e.2 = r := by
  obtain ⟨name, h⟩ := h
  obtain ⟨l₁, l₂, hl, -⟩ := List.lookup_eq_some_iff.1 h
  exact ⟨(name, r), by simp [hl], rfl⟩

theorem Orderly.isPresent (h : w.Orderly) (hr : w.Registered r) : w.storage.isPresent r = true := by
  obtain ⟨e, he, rfl⟩ := hr.mem
  exact h.present e he

theorem Orderly.eq_of_path (h : w.Orderly) (hr : w.Registered r) (hr' : w.Registered r')
    (hpath : r.path = r'.path) : r = r' := by
  obtain ⟨e, he, rfl⟩ := hr.mem
  obtain ⟨e', he', rfl⟩ := hr'.mem
  rw [List.inj_on_of_nodup_map h.distinct he he' hpath]

end World

namespace Setup

open Parse

variable {st : Setup} {w₀ w w' : World} {r t u c : Resource} {qs : List String} {depth : Nat}

/-- A resource refers to another one. -/
def Refers (st : Setup) (w : World) (r t : Resource) : Prop :=
  ∃ root, w.Reads r root ∧ t ∈ st.registry.targetsAll w.locator root.children

/-- The document of a resource is well formed, has a known root, and becomes a program if its
references are taken for granted. -/
def Sound (st : Setup) (w : World) (r : Resource) : Prop :=
  ∃ root maker p, w.Reads r root ∧ st.registry.root? root.head.name = some maker ∧
    Gives ((st.alone w.locator r).document root maker) w p w

theorem Refers.registered (h : st.Refers w r t) : w.Registered t := by
  obtain ⟨root, -, ht⟩ := h
  exact Registry.registered_of_mem_targetsAll root.children ht

/-! ### In the middle of parsing -/

/-- Where parsing stands: the resources are those of the start, the entities in progress have the
paths `qs`, and the depth suffices for all other resources. -/
structure Midway (w₀ w : World) (qs : List String) (depth : Nat) : Prop where
  storage : w.storage = w₀.storage
  locator : w.locator = w₀.locator
  progress : w.progress.map (fun k => (w.entity? k).map Entity.path) = qs.map some
  distinct : qs.Nodup
  registered : qs ⊆ w₀.locator.map fun e => e.2.path
  enough : w₀.locator.length < depth + qs.length

namespace Midway

theorem reads_iff (h : Midway w₀ w qs depth) {root : Xml.Element} :
    w.Reads r root ↔ w₀.Reads r root := by
  unfold World.Reads
  rw [h.storage]

theorem isSome_inProgress? (h : Midway w₀ w qs depth) :
    (inProgress? w r).isSome = true ↔ r.path ∈ qs := by
  have hqs : r.path ∈ qs ↔ some r.path ∈ w.progress.map fun k => (w.entity? k).map Entity.path := by
    rw [h.progress]
    simp
  rw [hqs, inProgress?, List.find?_isSome, List.mem_map]
  refine exists_congr fun k => and_congr_right fun _ => ?_
  cases w.entity? k <;> simp

theorem grows (h : Midway w₀ w qs depth) (hw : w.Grows w') :
    Midway w₀ w' qs depth where
  storage := hw.storage.trans h.storage
  locator := hw.locator.trans h.locator
  progress := by
    rw [hw.progress, ← h.progress]
    refine List.map_congr_left fun k hk => ?_
    have hk' : (w.entity? k).map Entity.path ∈ qs.map some := by
      rw [← h.progress]
      exact List.mem_map_of_mem hk
    obtain ⟨q, -, hq⟩ := List.mem_map.1 hk'
    obtain ⟨e, he, -⟩ := Option.map_eq_some_iff.1 hq.symm
    obtain ⟨e', he', hr⟩ := hw.resource he
    rw [he, he', Option.map_some, Option.map_some, Entity.path, Entity.path, hr]
  distinct := h.distinct
  registered := h.registered
  enough := h.enough

/-- A resource that is not in progress can be parsed: the depth is not used up. -/
theorem length_lt (h : Midway w₀ w qs depth) (hr : w₀.Registered r) (hq : r.path ∉ qs) :
    qs.length < w₀.locator.length := by
  have hnodup : (r.path :: qs).Nodup := List.nodup_cons.2 ⟨hq, h.distinct⟩
  have hsub : r.path :: qs ⊆ w₀.locator.map fun e => e.2.path := by
    obtain ⟨e, he, rfl⟩ := hr.mem
    exact List.cons_subset.2 ⟨List.mem_map_of_mem he, h.registered⟩
  have hle := (hnodup.subperm hsub).length_le
  rwa [List.length_cons, List.length_map] at hle

/-- One level deeper, the resource is in progress. -/
theorem begun (h : Midway w₀ w qs (depth + 1)) (hr : w₀.Registered r) (hq : r.path ∉ qs)
    (root : Xml.Element) :
    Midway w₀ (w.begun r root) (qs ++ [r.path]) depth where
  storage := h.storage
  locator := h.locator
  progress := by
    have hadded := (h.grows (w.grows_added r root)).progress
    have hnew : ((w.added r root).entity? w.entities.size).map Entity.path = some r.path := by
      simp [World.added, World.entity?, World.addEntity, World.write, World.enter, Entity.path]
    rw [World.begun, World.start, List.map_append, List.map_append]
    exact congrArg₂ (· ++ ·) hadded (congrArg (fun q => [q]) hnew)
  distinct := by
    rw [List.nodup_append]
    exact ⟨h.distinct, by simp, by simpa using fun a ha => ne_of_mem_of_not_mem ha hq⟩
  registered := by
    obtain ⟨e, he, rfl⟩ := hr.mem
    exact List.append_subset.2 ⟨h.registered, by simpa using ⟨e.1, e.2, he, rfl⟩⟩
  enough := by
    have := h.enough
    simp only [List.length_append, List.length_singleton]
    omega

end Midway

/-! ### What can be reached -/

/-- A resource can be reached from another one without passing through the paths `qs`. -/
inductive Reach (st : Setup) (w : World) (qs : List String) : Resource → Resource → Prop where
  | here {t : Resource} (h : t.path ∉ qs) : Reach st w qs t t
  | step {t t' u : Resource} (h : t.path ∉ qs) (href : st.Refers w t t')
      (hu : Reach st w qs t' u) : Reach st w qs t u

/-- Everything that can be reached without passing through the paths `qs` is sound. -/
def Clear (st : Setup) (w : World) (qs : List String) (t : Resource) : Prop :=
  ∀ u, st.Reach w qs t u → st.Sound w u

theorem reach_of_reflTransGen (hu : Relation.ReflTransGen (st.Refers w) t u) :
    st.Reach w [] t u := by
  induction hu using Relation.ReflTransGen.head_induction_on with
  | refl => exact .here (by simp)
  | head href _ ih => exact .step (by simp) href ih

theorem Reach.weaken {q : String} (h : st.Reach w (qs ++ [q]) t u) : st.Reach w qs t u := by
  induction h with
  | here h => exact .here fun hq => h (List.mem_append_left _ hq)
  | step h href _ ih => exact .step (fun hq => h (List.mem_append_left _ hq)) href ih

/-- A path either avoids a resource, or ends there, or leaves it for the last time. -/
theorem Reach.split (h : st.Reach w qs c u) (q : String) :
    st.Reach w (qs ++ [q]) c u ∨ u.path = q ∨
      ∃ r t, r.path = q ∧ st.Refers w r t ∧ st.Reach w (qs ++ [q]) t u ∧
        (r = c ∨ w.Registered r) := by
  induction h with
  | @here t h =>
    by_cases hq : t.path = q
    · exact .inr (.inl hq)
    · exact .inl (.here (by simp [h, hq]))
  | @step t t' u h href _ ih =>
    obtain ih | ih | ⟨r, t'', hr, href', hu, hreg⟩ := ih
    · by_cases hq : t.path = q
      · exact .inr (.inr ⟨t, t', hq, href, ih, .inl rfl⟩)
      · exact .inl (.step (by simp [h, hq]) href ih)
    · exact .inr (.inl ih)
    · refine .inr (.inr ⟨r, t'', hr, href', hu, .inr ?_⟩)
      obtain rfl | hreg := hreg
      · exact href.registered
      · exact hreg

theorem Reach.registered (h : st.Reach w qs c u) (hc : w.Registered c) : w.Registered u := by
  induction h with
  | here => exact hc
  | step _ href _ ih => exact ih href.registered

/-- Once a resource is finished, and everything below it was clear while it was in progress, it may
be passed through. -/
theorem Clear.of_finished (hw : w.Orderly) (hr : w.Registered r) (hsound : st.Sound w r)
    (hbelow : ∀ t, st.Refers w r t → st.Clear w (qs ++ [r.path]) t) (hc : w.Registered c)
    (h : st.Clear w (qs ++ [r.path]) c) : st.Clear w qs c := by
  intro u hu
  obtain havoid | hend | ⟨r', t, hpath, href, hlast, hr'⟩ := hu.split r.path
  · exact h u havoid
  · rw [hw.eq_of_path (hu.registered hc) hr hend]
    exact hsound
  · have hr' : w.Registered r' := by
      obtain rfl | hr' := hr'
      · exact hc
      · exact hr'
    obtain rfl := hw.eq_of_path hr' hr hpath
    exact hbelow t href u hlast

/-! ### Asking for a resource -/

/-- A resource that is asked for is in progress or kept, or there is depth left to parse it. -/
theorem Midway.found_or_anew (h : Midway w₀ w qs depth) (hr : w₀.Registered r)
    (st : Setup) :
    (∃ key record, Gives (st.parseIn depth r false) w (some key) (w.write record) ∧
      (r.path ∈ qs ∨ (w.cached? r.path).isSome = true)) ∨
    ∃ d, depth = d + 1 ∧ r.path ∉ qs ∧ Anew w r false := by
  obtain ⟨assemble, hparse⟩ := st.exists_parseWith depth r false
  rw [hparse]
  cases hprog : inProgress? w r with
  | some key =>
    have hq : r.path ∈ qs := h.isSome_inProgress?.1 (by rw [hprog]; rfl)
    exact .inl ⟨key, _, gives_parseWith_inProgress hprog false, .inl hq⟩
  | none =>
    have hq : r.path ∉ qs := fun hq => by
      have hsome := h.isSome_inProgress?.2 hq
      rw [hprog] at hsome
      cases hsome
    cases hfresh : fresh? w r with
    | some key =>
      refine .inl ⟨key, _, gives_parseWith_fresh hprog hfresh, .inr ?_⟩
      have hcached := (Option.filter_eq_some_iff.1 hfresh).1
      rw [hcached]
      rfl
    | none =>
      have hlt := h.length_lt hr hq
      have henough := h.enough
      obtain ⟨d, rfl⟩ : ∃ d, depth = d + 1 := ⟨depth - 1, by omega⟩
      exact .inr ⟨d, rfl, hq, hprog, fun _ => hfresh⟩

/-- If all resources that can be reached are sound, asking for one of them succeeds. -/
theorem parseIn_succeeds (hreg : st.registry.reference = .invoke) (hw : w₀.Orderly)
    {S : Resource → Prop} (hS : ∀ t, S t → w₀.Registered t ∧ st.Sound w₀ t)
    (hclosed : ∀ t u, S t → st.Refers w₀ t u → S u) (ht : S t)
    (h : Midway w₀ w qs depth) :
    ∃ key w', Gives (st.parseIn depth t false) w (some key) w' := by
  induction depth generalizing t qs w with
  | zero =>
    obtain ⟨key, record, hgives, -⟩ | ⟨d, hd, -⟩ := h.found_or_anew (hS t ht).1 st
    · exact ⟨key, _, hgives⟩
    · cases hd
  | succ depth ih =>
    obtain ⟨hr, root, maker, p, hroot, hmaker, hp⟩ := hS t ht
    obtain ⟨key, record, hgives, -⟩ | ⟨d, -, hq, hanew⟩ := h.found_or_anew hr st
    · exact ⟨key, _, hgives⟩
    -- the references are asked for one after another, in worlds that grow
    have hfinds : ∀ (ts : List Resource) (u : World), (∀ t ∈ ts, S t) →
        Midway w₀ u (qs ++ [t.path]) depth →
        ∃ u', Finds (fun t => st.parseIn depth t false) ts u
          u' := by
      intro ts
      induction ts with
      | nil => exact fun u _ _ => ⟨u, rfl⟩
      | cons t' ts ihts =>
        intro u hts hu
        obtain ⟨key, u₁, hkey⟩ := ih (hts t' (by simp)) hu
        obtain ⟨u', hu'⟩ := ihts u₁ (fun t ht => hts t (by simp [ht]))
          (hu.grows (grows_of_gives hkey))
        exact ⟨u', key, u₁, hkey, hu'⟩
    obtain ⟨w₁, hw₁⟩ := hfinds (st.registry.targetsAll w₀.locator root.children) (w.begun t root)
      (fun t' ht' => hclosed t t' ht ⟨root, hroot, ht'⟩) (h.begun hr hq root)
    have hpresent : w.storage.isPresent t = true := by
      rw [h.storage]
      exact hw.isPresent hr
    refine ⟨_, _, (gives_parseIn_iff hreg hanew).2
      ⟨hpresent, root, maker, p, w₁, h.reads_iff.2 hroot, hmaker, ?_, ?_, rfl, rfl⟩⟩
    · rw [h.locator]
      exact (st.steady_alone hreg w₀.locator t root maker).gives hp w
    · rw [h.locator]
      exact hw₁

/-- Everything that is kept is clear. -/
def KeepsClear (st : Setup) (w₀ : World) (qs : List String) (w : World) : Prop :=
  ∀ c, w₀.Registered c → (w.cached? c.path).isSome = true → st.Clear w₀ qs c

theorem path_of_cached_finished {key : EntityKey} {p : Program} {path : String}
    (h : ((st.finished w r key p).cached? path).isSome = true) :
    path = r.path ∨ (w.cached? path).isSome = true := by
  rw [cached?_finished] at h
  split at h
  · exact .inl ‹st.mayKeep r = true ∧ path = r.path›.2
  · exact .inr h

theorem KeepsClear.clear (h : st.KeepsClear w₀ qs w) (ht : w₀.Registered t)
    (hwhy : t.path ∈ qs ∨ (w.cached? t.path).isSome = true) : st.Clear w₀ qs t := by
  obtain hq | hcached := hwhy
  · intro u hu
    cases hu with
    | here hnot => exact absurd hq hnot
    | step hnot => exact absurd hq hnot
  · exact h t ht hcached

/-- If asking for a resource succeeds, everything that can be reached from it without passing
through what is in progress is sound. -/
theorem clear_of_gives (hreg : st.registry.reference = .invoke) (hw : w₀.Orderly)
    (ht : w₀.Registered t) (h : Midway w₀ w qs depth) (hkept : st.KeepsClear w₀ qs w)
    {key : EntityKey} (hgives : Gives (st.parseIn depth t false) w (some key) w') :
    st.Clear w₀ qs t ∧ st.KeepsClear w₀ qs w' := by
  induction depth generalizing t qs w key w' with
  | zero =>
    obtain ⟨key', record, hfound, hwhy⟩ | ⟨d, hd, -⟩ := h.found_or_anew ht st
    · obtain ⟨-, rfl⟩ := hfound.unique hgives
      exact ⟨hkept.clear ht hwhy, hkept⟩
    · cases hd
  | succ depth ih =>
    obtain ⟨key', record, hfound, hwhy⟩ | ⟨d, -, hq, hanew⟩ := h.found_or_anew ht st
    · obtain ⟨-, rfl⟩ := hfound.unique hgives
      exact ⟨hkept.clear ht hwhy, hkept⟩
    obtain ⟨-, root, maker, p, w₁, hroot, hmaker, hp, hfinds, -, rfl⟩ :=
      (gives_parseIn_iff hreg hanew).1 hgives
    rw [h.locator] at hp hfinds
    have hroot := h.reads_iff.1 hroot
    have hsound : st.Sound w₀ t :=
      ⟨root, maker, p, hroot, hmaker, (st.steady_alone hreg w₀.locator t root maker).gives hp w₀⟩
    -- while the resource is in progress, its references are found to be clear one after another
    have hbelow : ∀ (ts : List Resource) (u : World), (∀ t' ∈ ts, st.Refers w₀ t t') →
        Midway w₀ u (qs ++ [t.path]) depth →
        st.KeepsClear w₀ (qs ++ [t.path]) u →
        Finds (fun t => st.parseIn depth t false) ts u w₁ →
        (∀ t' ∈ ts, st.Clear w₀ (qs ++ [t.path]) t') ∧ st.KeepsClear w₀ (qs ++ [t.path]) w₁ := by
      intro ts
      induction ts with
      | nil =>
        rintro u - - hkept rfl
        exact ⟨by simp, hkept⟩
      | cons t' ts ihts =>
        rintro u hts hu hkept ⟨key, u₁, hkey, hrest⟩
        obtain ⟨hclear, hkept⟩ := ih (hts t' (by simp)).registered hu hkept hkey
        obtain ⟨hclears, hkept⟩ := ihts u₁ (fun t ht => hts t (by simp [ht]))
          (hu.grows (grows_of_gives hkey)) hkept hrest
        exact ⟨by simpa using ⟨hclear, hclears⟩, hkept⟩
    have hkept' : st.KeepsClear w₀ (qs ++ [t.path]) (w.begun t root) :=
      fun c hc hcached u hu => hkept c hc hcached u hu.weaken
    obtain ⟨hclears, hkept₁⟩ := hbelow _ _ (fun t' ht' => ⟨root, hroot, ht'⟩)
      (h.begun ht hq root) hkept' hfinds
    have hrefs : ∀ t', st.Refers w₀ t t' → st.Clear w₀ (qs ++ [t.path]) t' := by
      rintro t' ⟨root', hroot', ht'⟩
      obtain rfl := hroot.unique hroot'
      exact hclears t' ht'
    have hself : st.Clear w₀ (qs ++ [t.path]) t := hkept'.clear ht (.inl (by simp))
    refine ⟨hself.of_finished hw ht hsound hrefs ht, fun c hc hcached => ?_⟩
    obtain hpath | hcached := path_of_cached_finished hcached
    · obtain rfl := hw.eq_of_path hc ht hpath
      exact hself.of_finished hw hc hsound hrefs hc
    · exact (hkept₁ c hc hcached).of_finished hw ht hsound hrefs hc

/-- The depth never runs out. -/
theorem not_tooDeep (hreg : st.registry.reference = .invoke)
    (ht : w₀.Registered t) (h : Midway w₀ w qs depth) (path : String) :
    ¬ Fails (st.parseIn depth t false) w (.tooDeep path) := by
  induction depth generalizing t qs w with
  | zero =>
    obtain ⟨key, record, hfound, -⟩ | ⟨d, hd, -⟩ := h.found_or_anew ht st
    · exact hfound.not_fails
    · cases hd
  | succ depth ih =>
    intro hfails
    obtain ⟨key, record, hfound, -⟩ | ⟨d, -, hq, -⟩ := h.found_or_anew ht st
    · exact hfound.not_fails hfails
    obtain ⟨root, hroot, hstops⟩ := stops_of_fails_parseIn hreg hfails rfl rfl
    rw [h.locator] at hstops
    have hnone : ∀ (ts : List Resource) (u : World), (∀ t' ∈ ts, w₀.Registered t') →
        Midway w₀ u (qs ++ [t.path]) depth →
        ¬ Stops (fun t => st.parseIn depth t false) ts u
          (.tooDeep path) := by
      intro ts
      induction ts with
      | nil => exact fun _ _ _ h => h
      | cons t' ts ihts =>
        rintro u hts hu (hfails | ⟨key, u₁, hkey, hrest⟩)
        · exact ih (hts t' (by simp)) hu hfails
        · exact ihts u₁ (fun t ht => hts t (by simp [ht])) (hu.grows (grows_of_gives hkey)) hrest
    exact hnone _ _ (fun t' ht' => Registry.registered_of_mem_targetsAll root.children ht')
      (h.begun ht hq root) hstops

/-- At the start nothing is in progress, and the depth suffices for all resources. -/
theorem midway_start (w : World) : Midway w w.idle [] (w.locator.length + 1) where
  storage := rfl
  locator := rfl
  progress := rfl
  distinct := List.nodup_nil
  registered := List.nil_subset _
  enough := by simp

/-- **Asking for a resource succeeds exactly if the resource is registered and every resource that
can be reached from it is sound, whether or not entities are kept and however the resources refer to
each other; and it never fails because they do so too deeply.** -/
theorem load_succeeds_iff (st : Setup) (hreg : st.registry.reference = .invoke) (w : World)
    (hw : w.Orderly) (hcache : w.cache = []) (name : String) :
    ((∃ key w', Gives (st.load name) w key w') ↔ ∃ r, w.locator.get? name = some r ∧
      ∀ t, Relation.ReflTransGen (st.Refers w) r t → st.Sound w t) ∧
    ∀ path, ¬ Fails (st.load name) w (.tooDeep path) := by
  refine ⟨⟨?_, ?_⟩, ?_⟩
  · rintro ⟨key, w', hgives⟩
    obtain ⟨r, hr, hparse⟩ := gives_load.1 hgives
    have hkept : st.KeepsClear w [] w := by
      intro c _ hcached
      rw [World.cached?, hcache] at hcached
      cases hcached
    have hclear := (clear_of_gives hreg hw ⟨name, hr⟩ (midway_start w) hkept hparse).1
    exact ⟨r, hr, fun t ht => hclear t (reach_of_reflTransGen ht)⟩
  · rintro ⟨r, hr, hsound⟩
    -- what can be reached is registered, sound and closed under references
    have hS : ∀ t, Relation.ReflTransGen (st.Refers w) r t → w.Registered t ∧ st.Sound w t := by
      intro t ht
      refine ⟨?_, hsound t ht⟩
      obtain rfl | ⟨_, -, href⟩ := ht.cases_tail
      · exact ⟨name, hr⟩
      · exact href.registered
    obtain ⟨key, w', hparse⟩ := parseIn_succeeds hreg hw hS (fun _ _ ht href => ht.tail href) .refl
      (midway_start w)
    exact ⟨key, w', gives_load.2 ⟨r, hr, hparse⟩⟩
  · intro path hfails
    obtain h | ⟨r, hr, h | h⟩ := fails_load hfails
    · cases h
    · cases h
    · exact not_tooDeep hreg ⟨name, hr⟩ (midway_start w) path h

/-- Two resources that refer to each other, one of them also to itself. -/
def circle : World :=
  (({} : World).registerMemory 0 "ping" "<scenario><pong/></scenario>" true).registerMemory 0 "pong"
    "<scenario><ping/><pong/></scenario>" true

theorem load_succeeds_iff_circle :
    circle.Orderly ∧ circle.cache = [] ∧ ∃ r, circle.locator.get? "ping" = some r ∧
      ∀ t, Relation.ReflTransGen (Refers { registry := Builtin.registry } circle) r t →
        Sound { registry := Builtin.registry } circle t := by
  have horderly : circle.Orderly := ⟨by decide +kernel, by decide +kernel⟩
  refine ⟨horderly, rfl, (load_succeeds_iff _ rfl circle horderly rfl "ping").1.1 ?_⟩
  have hok : ((load { registry := Builtin.registry } "ping").run.run circle).1.toOption.isSome =
      true := by decide +kernel
  obtain hgives | ⟨e, he⟩ := gives_or_fails (load { registry := Builtin.registry } "ping") circle
  · exact hgives
  · rw [he] at hok
    cases hok

end Setup

end Scenario
