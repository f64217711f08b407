import Scenario.Proofs.Documents

/-!
# How names are spelled

The name of a tag goes up to the first blank, and the name of an attribute begins behind blanks and
goes up to a blank or an equals sign. So whatever the text of a document is, the names of its
elements and attributes have no blank in them (`spelled_of_read`).
-/

namespace Scenario.Xml

/-! ### The tags of a document that was read -/

section Heads

variable {b b' : Builder} {es : List Event} {line : Nat} {root : Element}

theorem Builder.no_fault_of_feedAll (h : b.feedAll es = .ok b') (e : Error) : .fault e ∉ es := by
  induction es generalizing b with
  | nil => simp
  | cons f es ih =>
    rw [Builder.feedAll] at h
    split at h
    · next hfeed =>
      rw [List.mem_cons]
      rintro (rfl | hmem)
      · cases hfeed
      · exact ih h hmem
    · cases h

theorem no_fault_of_ofEvents (h : ofEvents es line = .ok root) (e : Error) : .fault e ∉ es := by
  unfold ofEvents at h
  split at h
  · next hfeed => exact Builder.no_fault_of_feedAll hfeed e
  · cases h

/-- The tree of events that match, written out. -/
theorem marks_of_ofEvents (hmatched : Event.Matched 0 es) (h : ofEvents es line = .ok root) :
    root.marks = (Event.within 0 es).flatMap Event.marks := by
  by_cases hone : Event.openAfter 0 es = 0 ∧ Event.begun 0 es = 1
  · obtain ⟨root', hread, hmarks⟩ := ofEvents_ok hmatched hone line
    cases hread.symm.trans h
    exact hmarks
  · obtain ⟨err, hread, -⟩ := ofEvents_error hmatched hone line
    cases hread.symm.trans h

theorem Event.within_subset (n : Nat) (es : List Event) : Event.within n es ⊆ es := by
  induction es generalizing n with
  | nil => simp [Event.within]
  | cons e es ih =>
    rw [Event.within]
    refine List.append_subset.2 ⟨?_, List.Subset.trans (ih _) (List.subset_cons_self e es)⟩
    split
    · exact List.nil_subset _
    · exact List.cons_subset.2 ⟨List.mem_cons_self, List.nil_subset _⟩

/-- It is what the content of a tag says, under some declarations. -/
def Head.Written (h : Head) : Prop :=
  ∃ ds ds' line content, Event.resolveHead ds line content = .ok (h, ds')

theorem Event.Resolves.written {p : Nat × Markup} {e : Event} (h : Resolves p e) {head : Head}
    (hmem : .opens head ∈ e.marks) : head.Written := by
  cases h with
  | text _ => simp [marks] at hmem
  | data line cs => simp [marks] at hmem
  | close line name => simp [marks] at hmem
  | start hhead =>
    obtain rfl : head = _ := by simpa [marks] using hmem
    exact ⟨_, _, _, _, hhead⟩
  | empty hhead =>
    obtain rfl : head = _ := by simpa [marks] using hmem
    exact ⟨_, _, _, _, hhead⟩

theorem Event.written_of_resolves {ps : List (Nat × Markup)} (h : List.Forall₂ Resolves ps es) :
    ∀ e ∈ es, ∀ head, .opens head ∈ e.marks → head.Written := by
  induction h with
  | nil => simp
  | cons hp _ ih => exact List.forall_mem_cons.2 ⟨fun head => hp.written, ih⟩

/-- Every element of a document comes from the content of a tag. -/
theorem written_of_read {text : String} (h : read text = .ok root) {head : Head}
    (hmem : .opens head ∈ root.marks) : head.Written := by
  have hresolves := Event.ofMarkup_resolves (no_fault_of_ofEvents h)
  rw [marks_of_ofEvents hresolves.2 h, List.mem_flatMap] at hmem
  obtain ⟨e, he, hmem⟩ := hmem
  exact Event.written_of_resolves hresolves.1 e (Event.within_subset _ _ he) head hmem

end Heads

/-! ### Names without blanks -/

/-- No character is a blank of markup. -/
def Spaceless (cs : List Char) : Prop := ∀ c ∈ cs, Markup.isSpace c = false

theorem Spaceless.of_all {cs : List Char} (h : (cs.all fun c => !Markup.isSpace c) = true) :
    Spaceless cs := by
  intro c hc
  simpa using List.all_eq_true.1 h c hc

/-- The names in a tag. -/
structure Head.Spelled (h : Head) : Prop where
  name : Spaceless h.name.toList
  attr : ∀ a ∈ h.attrs, Spaceless a.name.toList

theorem spaceless_splitName {cs : List Char} (h : Spaceless cs) :
    Spaceless (splitName cs).2.toList := by
  unfold splitName
  split
  · next d rest hdrop =>
    intro c hc
    have hsub := (List.dropWhile_sublist (l := cs) (· != ':')).subset
    rw [hdrop] at hsub
    exact h c (hsub (List.mem_cons_of_mem d (by simpa using hc)))
  · simpa using h

theorem spaceless_rawName (content : List Char) : Spaceless (rawName content) := by
  intro c hc
  simpa using List.mem_takeWhile_imp hc

namespace RawAttr

/-- An attribute whose name has no blank, or a fault. -/
def Spelled : RawAttr → Prop
  | good key _ _ => Spaceless key
  | _ => True

theorem spelled_readOne {c : Char} (hc : Markup.isSpace c = false) (size : Nat) (cs : List Char) :
    (readOne size c cs).1.Spelled := by
  have hkey : Spaceless (c :: cs.takeWhile isKeyChar) := by
    refine List.forall_mem_cons.2 ⟨hc, fun d hd => ?_⟩
    have hd := List.mem_takeWhile_imp hd
    simp only [isKeyChar, Bool.and_eq_true, Bool.not_eq_true'] at hd
    exact hd.2
  unfold readOne
  dsimp only
  split
  · trivial
  · split
    · unfold readValue
      split
      · trivial
      · split
        · split
          · trivial
          · exact hkey
        · trivial
    · trivial

theorem spelled_readAll (size : Nat) (cs : List Char) : ∀ r ∈ readAll size cs, r.Spelled := by
  -- what follows an attribute is shorter
  induction hn : cs.length using Nat.strong_induction_on generalizing cs with
  | h n ih =>
    subst hn
    rw [readAll.eq_def]
    split
    · simp
    · next c rest hdrop =>
      have hc : Markup.isSpace c = false := by
        simpa [hdrop] using List.head?_dropWhile_not Markup.isSpace cs
      have hone := spelled_readOne hc size rest
      have hshort := readOne_length size c rest
      have hlen := (List.dropWhile_sublist (l := cs) Markup.isSpace).length_le
      rw [hdrop, List.length_cons] at hlen
      split
      · next hread =>
        rw [hread] at hone hshort
        refine List.forall_mem_cons.2 ⟨hone, ih _ ?_ _ rfl⟩
        dsimp only at hshort
        omega
      · next hread =>
        rw [hread] at hone
        simpa using hone

end RawAttr

theorem Event.spelled_resolveAttrs {ds : Declarations} {seen : List (List Char × Nat)}
    {rs : List RawAttr} {attrs : List Attr} (hrs : ∀ r ∈ rs, r.Spelled)
    (h : resolveAttrs ds seen rs = .ok attrs) : ∀ a ∈ attrs, Spaceless a.name.toList := by
  induction rs generalizing seen attrs with
  | nil =>
    cases h
    simp
  | cons r rs ih =>
    obtain ⟨hr, hmore⟩ := List.forall_mem_cons.1 hrs
    cases r with
    | noEquals p => cases h
    | bad key place f =>
      rw [resolveAttrs] at h
      split at h <;> cases h
    | good key place value =>
      rw [resolveAttrs] at h
      split at h
      · cases h
      · dsimp only at h
        split at h
        · exact ih hmore h
        · split at h
          · cases h
          · split at h
            · cases h
            · obtain ⟨attrs', hattrs, rfl⟩ := exists_of_map_eq_ok h
              exact List.forall_mem_cons.2 ⟨spaceless_splitName hr, ih hmore hattrs⟩

theorem Head.Written.spelled {h : Head} (hh : h.Written) : h.Spelled := by
  obtain ⟨ds, ds', line, content, hhead⟩ := hh
  unfold Event.resolveHead at hhead
  dsimp only at hhead
  split at hhead
  · cases hhead
  · split at hhead
    · cases hhead
    · obtain ⟨attrs, hattrs, heq⟩ := exists_of_map_eq_ok hhead
      obtain ⟨rfl, -⟩ := Prod.mk.inj heq
      exact ⟨spaceless_splitName (spaceless_rawName content),
        Event.spelled_resolveAttrs (RawAttr.spelled_readAll _ _) hattrs⟩

/-- **Names have no blanks.** The names of the elements of a document and those of their attributes
have no blank in them. -/
theorem spelled_of_read {text : String} {root : Element} (h : read text = .ok root) {head : Head}
    (hmem : .opens head ∈ root.marks) : head.Spelled :=
  (written_of_read h hmem).spelled

end Scenario.Xml
