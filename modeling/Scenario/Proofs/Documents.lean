import Scenario.Proofs.Scanning
import Scenario.Xml.Document
import Mathlib.Data.List.Forall2

/-!
# Documents from events

A document is built from its events by a stack of open elements. This module relates the tree to
the events. `Node.marks` writes a tree out: where its elements open and close and the texts between.
The builder keeps in step with this: its root and its open elements, written out one after the
other, are what it has taken in so far (`Builder.feed_takes`).

An event completes an element outside all others if it is an empty element there, or the end of the
only open one (`Event.Completes`). The builder refuses the second such event and nothing else
(`Builder.feed_refused`), as long as every end tag closes an open element (`Event.Matched`). So what
is read hangs only on how many elements begin outside all others and how many are left open
(`document_has_one_root`).
-/

namespace Scenario.Xml

/-! ### Trees written out -/

/-- What stands at a place of a tree that is written out in document order. -/
inductive Mark where
  /-- An element begins. -/
  | opens (head : Head)
  /-- The innermost element ends. -/
  | closes
  /-- A text and its line. -/
  | text (s : String) (line : Nat)
  deriving DecidableEq

mutual

/-- A node written out. -/
def Node.marks : Node → List Mark
  | .element head children => .opens head :: (Node.marksAll children ++ [.closes])
  | .text s line => [.text s line]

/-- Nodes written out. -/
def Node.marksAll : List Node → List Mark
  | [] => []
  | n :: ns => n.marks ++ Node.marksAll ns

end

theorem Node.marksAll_append (ns ms : List Node) :
    Node.marksAll (ns ++ ms) = Node.marksAll ns ++ Node.marksAll ms := by
  induction ns with
  | nil => rfl
  | cons n ns ih => rw [List.cons_append, marksAll, marksAll, ih, List.append_assoc]

/-- An element written out. -/
def Element.marks (e : Element) : List Mark := e.toNode.marks

namespace Event

/-- What an event writes. -/
def marks : Event → List Mark
  | start head => [.opens head]
  | empty head => [.opens head, .closes]
  | close _ => [.closes]
  | text s line => [.text s line]
  | fault _ => []

/-- The line of an event. -/
def line : Event → Nat
  | start head => head.line
  | empty head => head.line
  | close line => line
  | text _ line => line
  | fault e => e.line

/-! ### The course of events -/

/-- The number of open elements after an event; `n` are open before it. -/
def depthAfter (n : Nat) : Event → Nat
  | start _ => n + 1
  | close _ => n - 1
  | _ => n

/-- The event completes an element outside all others. -/
def Completes (n : Nat) : Event → Bool
  | empty _ => n == 0
  | close _ => n == 1
  | _ => false

/-- An element outside all others begins with the event. -/
def Begins (n : Nat) : Event → Bool
  | empty _ => n == 0
  | start _ => n == 0
  | _ => false

/-- The event is a text outside all elements. -/
def IsOutside (n : Nat) : Event → Bool
  | text _ _ => n == 0
  | _ => false

/-- The event is no fault, and an end tag has an open element to close. -/
def Fits (n : Nat) : Event → Prop
  | close _ => n ≠ 0
  | fault _ => False
  | _ => True

/-- The number of open elements after events. -/
def openAfter : Nat → List Event → Nat
  | n, [] => n
  | n, e :: es => openAfter (e.depthAfter n) es

/-- The number of elements that are completed outside all others. -/
def completed : Nat → List Event → Nat
  | _, [] => 0
  | n, e :: es => (if e.Completes n then 1 else 0) + completed (e.depthAfter n) es

/-- The number of elements that begin outside all others. -/
def begun : Nat → List Event → Nat
  | _, [] => 0
  | n, e :: es => (if e.Begins n then 1 else 0) + begun (e.depthAfter n) es

/-- The events without the texts outside all elements. -/
def within : Nat → List Event → List Event
  | _, [] => []
  | n, e :: es => (if e.IsOutside n then [] else [e]) ++ within (e.depthAfter n) es

/-- Every event fits: there is no fault, and every end tag closes an open element. -/
def Matched : Nat → List Event → Prop
  | _, [] => True
  | n, e :: es => e.Fits n ∧ Matched (e.depthAfter n) es

section Course

variable {n : Nat} {e : Event} {es fs : List Event}

theorem matched_append : Matched n (es ++ fs) ↔ Matched n es ∧ Matched (openAfter n es) fs := by
  induction es generalizing n with
  | nil => simp [Matched, openAfter]
  | cons e es ih => rw [List.cons_append, Matched, Matched, openAfter, ih, and_assoc]

/-- An event that begins an element outside all others completes it or leaves it open, and one that
only completes it finds it open. -/
theorem begins_eq (h : e.Fits n) :
    (if e.Begins n then 1 else 0) + min n 1 =
      (if e.Completes n then 1 else 0) + min (e.depthAfter n) 1 := by
  cases e with
  | start head => cases n <;> simp [Begins, Completes, depthAfter]
  | empty head => rfl
  | text s line => rfl
  | close line =>
    obtain _ | _ | n := n
    · exact absurd rfl h
    · rfl
    · simp [Begins, Completes, depthAfter]
  | fault e => exact h.elim

/-- An element outside all others that was begun is completed, or it is the outermost open one. -/
theorem begun_eq (h : Matched n es) :
    begun n es + min n 1 = completed n es + min (openAfter n es) 1 := by
  induction es generalizing n with
  | nil => rfl
  | cons e es ih =>
    have hstep := begins_eq h.1
    have hmore := ih h.2
    rw [begun, completed, openAfter]
    omega

/-- The event that completes one more element than a given number. -/
theorem exists_completing {k : Nat} (h : k < completed n es) :
    ∃ before e after, es = before ++ e :: after ∧ completed n before = k ∧
      e.Completes (openAfter n before) = true := by
  induction es generalizing n k with
  | nil => exact absurd h (Nat.not_lt_zero k)
  | cons e es ih =>
    cases hc : e.Completes n with
    | true =>
      -- `e` is the event if nothing is to be completed before it.
      cases k with
      | zero => exact ⟨[], e, es, rfl, rfl, hc⟩
      | succ k =>
        simp only [completed, hc, if_true] at h
        have hmore : k < completed (e.depthAfter n) es := by omega
        obtain ⟨before, f, after, rfl, hcount, hf⟩ := ih hmore
        refine ⟨e :: before, f, after, rfl, ?_, hf⟩
        simp only [completed, hc, if_true, hcount]
        omega
    | false =>
      simp only [completed, hc, Bool.false_eq_true, if_false, Nat.zero_add] at h
      obtain ⟨before, f, after, rfl, hcount, hf⟩ := ih h
      refine ⟨e :: before, f, after, rfl, ?_, hf⟩
      simp only [completed, hc, Bool.false_eq_true, if_false, Nat.zero_add, hcount]

end Course

end Event

/-! ### The builder in step with the events -/

/-- An open element written out so far. -/
def Open.marks (o : Open) : List Mark := .opens o.head :: Node.marksAll o.children.reverse

namespace Builder

/-- The root, if it is complete, and the open elements, outermost first, written out. -/
def marks (b : Builder) : List Mark :=
  (b.root.map Element.marks).getD [] ++ b.opened.reverse.flatMap Open.marks

/-- The number of open elements. -/
def depth (b : Builder) : Nat := b.opened.length

/-- The number of complete elements outside all others. -/
def roots (b : Builder) : Nat := b.root.toList.length

section Children

variable {b : Builder}

theorem marks_addChild (h : b.depth ≠ 0) (n : Node) :
    (b.addChild n).marks = b.marks ++ n.marks := by
  obtain ⟨o, outer, hopened⟩ := List.exists_cons_of_length_pos (Nat.pos_of_ne_zero h)
  simp [addChild, hopened, marks, Open.marks, Node.marksAll_append, Node.marksAll]

theorem depth_addChild (n : Node) : (b.addChild n).depth = b.depth := by
  unfold addChild
  split
  · rename_i hopened
    simp [depth, hopened]
  · rfl

theorem roots_addChild (n : Node) : (b.addChild n).roots = b.roots := by
  unfold addChild
  split <;> rfl

theorem addChild_outside (h : b.depth = 0) (n : Node) : b.addChild n = b := by
  have hopened : b.opened = [] := List.length_eq_zero_iff.1 h
  simp [addChild, hopened]

/-- A second root is refused. -/
theorem attach_refused (hdepth : b.depth = 0) (hroots : b.roots ≠ 0) (e : Element) :
    b.attach e = .error .manyRoots := by
  have hopened : b.opened = [] := List.length_eq_zero_iff.1 hdepth
  cases hroot : b.root with
  | none => exact absurd (by rw [roots, hroot]; rfl) hroots
  | some r => simp [attach, hopened, hroot]

/-- Nothing else is. -/
theorem attach_takes (h : b.depth = 0 → b.roots = 0) (e : Element) :
    ∃ b', b.attach e = .ok b' ∧ b'.depth = b.depth ∧ b'.marks = b.marks ++ e.marks ∧
      b'.roots = b.roots + (if b.depth = 0 then 1 else 0) := by
  by_cases hdepth : b.depth = 0
  · have hopened : b.opened = [] := List.length_eq_zero_iff.1 hdepth
    have hroot : b.root = none := by
      simpa [roots] using h hdepth
    refine ⟨{ b with root := some e }, ?_, rfl, ?_, ?_⟩
    · simp [attach, hopened, hroot]
    · simp [marks, hopened, hroot]
    · simp [roots, hroot, hdepth]
  · refine ⟨b.addChild e.toNode, ?_, depth_addChild _, marks_addChild hdepth _, ?_⟩
    · have hopened : b.opened ≠ [] := fun hnil => hdepth (List.length_eq_zero_iff.2 hnil)
      simp [attach, hopened]
    · rw [roots_addChild, if_neg hdepth, Nat.add_zero]

end Children

/-- What a builder has become by taking in an event. -/
structure Takes (b : Builder) (e : Event) (b' : Builder) : Prop where
  /-- The number of open elements. -/
  depth : b'.depth = e.depthAfter b.depth
  /-- The number of complete elements outside all others. -/
  roots : b'.roots = b.roots + (if e.Completes b.depth then 1 else 0)
  /-- What is written out: a text outside all elements leaves no mark. -/
  marks : b'.marks = b.marks ++ (if e.IsOutside b.depth then [] else e.marks)

section Feeding

variable {b : Builder} {e : Event}

/-- The builder whose innermost open element is taken off. -/
theorem marks_outer {o : Open} {outer : List Open} (h : b.opened = o :: outer) :
    b.marks = { b with opened := outer }.marks ++ o.marks := by
  simp [marks, h]

theorem marks_closed (o : Open) :
    Element.marks ⟨o.head, o.children.reverse⟩ = o.marks ++ [.closes] := by
  simp [Element.marks, Element.toNode, Node.marks, Open.marks]

theorem exists_opened {n : Nat} (h : b.depth = n + 1) :
    ∃ o outer, b.opened = o :: outer ∧ { b with opened := outer }.depth = n := by
  obtain ⟨o, outer, hopened⟩ := List.exists_cons_of_length_eq_add_one h
  refine ⟨o, outer, hopened, ?_⟩
  rw [depth, hopened, List.length_cons] at h
  exact Nat.succ.inj h

theorem feed_close {o : Open} {outer : List Open} (h : b.opened = o :: outer) (line : Nat) :
    b.feed (.close line) =
      (attach { b with opened := outer } ⟨o.head, o.children.reverse⟩).mapError (⟨line, ·⟩) := by
  rw [feed, h]

/-- The second event that completes an element outside all others is refused. -/
theorem feed_refused (hcompletes : e.Completes b.depth = true) (hroots : b.roots ≠ 0) :
    b.feed e = .error ⟨e.line, .manyRoots⟩ := by
  cases e with
  | empty head =>
    rw [feed, attach_refused (beq_iff_eq.1 hcompletes) hroots]
    rfl
  | close line =>
    obtain ⟨o, outer, hopened, hdepth⟩ := exists_opened (beq_iff_eq.1 hcompletes)
    rw [feed_close hopened, attach_refused hdepth hroots]
    rfl
  | _ => cases hcompletes

/-- Every other event that fits is taken in. -/
theorem feed_takes (hfits : e.Fits b.depth)
    (h : e.Completes b.depth = true → b.roots = 0) : ∃ b', b.feed e = .ok b' ∧ b.Takes e b' := by
  cases e with
  | start head =>
    refine ⟨{ b with opened := ⟨head, []⟩ :: b.opened }, rfl, rfl, rfl, ?_⟩
    simp [marks, Open.marks, Event.IsOutside, Event.marks, Node.marksAll]
  | empty head =>
    obtain ⟨b', hattach, hdepth, hmarks, hroots⟩ :=
      b.attach_takes (fun hzero => h (beq_iff_eq.2 hzero)) ⟨head, []⟩
    refine ⟨b', by rw [feed, hattach]; rfl, hdepth, ?_, hmarks⟩
    simpa [Event.Completes] using hroots
  | close line =>
    obtain ⟨n, hn⟩ := Nat.exists_eq_succ_of_ne_zero hfits
    obtain ⟨o, outer, hopened, hdepth⟩ := exists_opened hn
    have hfree : { b with opened := outer }.depth = 0 → { b with opened := outer }.roots = 0 := by
      intro hzero
      apply h
      rw [Event.Completes, hn, ← hdepth, hzero]
      rfl
    obtain ⟨b', hattach, hdepth', hmarks, hroots⟩ :=
      attach_takes hfree ⟨o.head, o.children.reverse⟩
    refine ⟨b', by rw [feed_close hopened, hattach]; rfl, ?_, ?_, ?_⟩
    · rw [hdepth', hdepth, Event.depthAfter, hn]
      rfl
    · rw [hroots, hdepth, Event.Completes, hn]
      simp [roots]
    · rw [hmarks, marks_closed, marks_outer hopened, List.append_assoc]
      rfl
  | text s line =>
    refine ⟨b.addChild (.text s line), rfl, depth_addChild _, roots_addChild _, ?_⟩
    by_cases hzero : b.depth = 0
    · rw [addChild_outside hzero, Event.IsOutside, beq_iff_eq.2 hzero, if_pos rfl, List.append_nil]
    · rw [marks_addChild hzero, Event.IsOutside, beq_false_of_ne hzero]
      rfl
  | fault e => exact hfits.elim

/-- Events that complete at most one element outside all others are taken in. -/
theorem feedAll_takes {es : List Event} (hmatched : Event.Matched b.depth es)
    (h : b.roots + Event.completed b.depth es ≤ 1) :
    ∃ b', b.feedAll es = .ok b' ∧ b'.depth = Event.openAfter b.depth es ∧
      b'.roots = b.roots + Event.completed b.depth es ∧
      b'.marks = b.marks ++ (Event.within b.depth es).flatMap Event.marks := by
  induction es generalizing b with
  | nil => exact ⟨b, rfl, rfl, rfl, (List.append_nil _).symm⟩
  | cons e es ih =>
    -- The bound is shared: what `e` completes is a root of `b₁`, so the sum stays the same.
    rw [Event.completed] at h
    obtain ⟨b₁, hfeed, htakes⟩ := feed_takes hmatched.1 (fun hc => by
      rw [hc, if_pos rfl] at h
      omega)
    have hmatched₁ := hmatched.2
    rw [← htakes.depth] at hmatched₁ h
    obtain ⟨b', hall, hdepth, hroots, hmarks⟩ := ih hmatched₁ (by
      rw [htakes.roots]
      omega)
    refine ⟨b', ?_, ?_, ?_, ?_⟩
    · rw [feedAll, hfeed]
      exact hall
    · rw [hdepth, htakes.depth, Event.openAfter]
    · rw [hroots, htakes.roots, htakes.depth, Event.completed, Nat.add_assoc]
    · rw [hmarks, htakes.marks, htakes.depth, Event.within, List.flatMap_append]
      split <;> simp

theorem feedAll_append {es fs : List Event} {b' : Builder} (h : b.feedAll es = .ok b') :
    b.feedAll (es ++ fs) = b'.feedAll fs := by
  induction es generalizing b with
  | nil =>
    cases h
    rfl
  | cons e es ih =>
    rw [List.cons_append, feedAll]
    rw [feedAll] at h
    split at h
    · exact ih h
    · cases h

end Feeding

end Builder

/-! ### Pieces and their events -/

namespace Event

/-- The event that a piece stands for. -/
inductive Resolves : Nat × Markup → Event → Prop where
  /-- A text, with its references replaced. -/
  | text {line : Nat} {cs : List Char} {s : String} (h : unescape cs = .ok s) :
      Resolves (line, .text cs) (.text s line)
  /-- A character data section, as it is. -/
  | data (line : Nat) (cs : List Char) : Resolves (line, .data cs) (.text (String.ofList cs) line)
  /-- A start tag, under the declarations in force. -/
  | start {ds ds' : Declarations} {content : List Char} {head : Head}
      (h : resolveHead ds head.line content = .ok (head, ds')) :
      Resolves (head.line, .start content) (.start head)
  /-- An empty element, under the declarations in force. -/
  | empty {ds ds' : Declarations} {content : List Char} {head : Head}
      (h : resolveHead ds head.line content = .ok (head, ds')) :
      Resolves (head.line, .empty content) (.empty head)
  /-- An end tag. -/
  | close (line : Nat) (name : List Char) : Resolves (line, .close name) (.close line)

theorem line_of_resolveHead {ds ds' : Declarations} {line : Nat} {content : List Char} {head : Head}
    (h : resolveHead ds line content = .ok (head, ds')) : head.line = line := by
  simp only [resolveHead] at h
  split at h
  · cases h
  · split at h
    · cases h
    · obtain ⟨attrs, -, heq⟩ := exists_of_map_eq_ok h
      cases heq
      rfl

end Event

/-- The names and references of pieces can be resolved, and every end tag closes the innermost open
element. -/
def Resolvable (ms : List (Nat × Markup)) : Prop := ∀ e, .fault e ∉ Event.ofMarkup [] ms

namespace Event

/-- The first piece gives nothing if it is ignorable, and else its event. The events go on with the
elements that are then open. -/
theorem ofMarkup_cons {opened : Opened} {p : Nat × Markup} {ms : List (Nat × Markup)}
    (h : ∀ e, .fault e ∉ ofMarkup opened (p :: ms)) :
    (p.2 = .ignorable ∧ ofMarkup opened (p :: ms) = ofMarkup opened ms) ∨
    ∃ e opened', p.2 ≠ .ignorable ∧ Resolves p e ∧ e.Fits opened.length ∧
      opened'.length = e.depthAfter opened.length ∧
      ofMarkup opened (p :: ms) = e :: ofMarkup opened' ms := by
  obtain ⟨line, m⟩ := p
  cases m with
  | ignorable => exact .inl ⟨rfl, rfl⟩
  | data cs => exact .inr ⟨_, opened, nofun, .data line cs, trivial, rfl, rfl⟩
  | fault f => exact absurd List.mem_cons_self (h _)
  | text cs =>
    simp only [ofMarkup] at h ⊢
    split at h
    · rename_i s hs
      exact .inr ⟨_, opened, nofun, .text hs, trivial, rfl, rfl⟩
    · exact absurd List.mem_cons_self (h _)
  | start content =>
    simp only [ofMarkup] at h ⊢
    split at h
    · rename_i head ds hhead
      obtain rfl := line_of_resolveHead hhead
      exact .inr ⟨_, _, nofun, .start hhead, trivial, rfl, rfl⟩
    · exact absurd List.mem_cons_self (h _)
  | empty content =>
    simp only [ofMarkup] at h ⊢
    split at h
    · rename_i head ds hhead
      obtain rfl := line_of_resolveHead hhead
      exact .inr ⟨_, opened, nofun, .empty hhead, trivial, rfl, rfl⟩
    · exact absurd List.mem_cons_self (h _)
  | close name =>
    simp only [ofMarkup] at h ⊢
    split at h
    · rename_i outer hclose
      unfold checkClose at hclose
      split at hclose
      · cases hclose
      · split at hclose
        · cases hclose
          exact .inr ⟨_, outer, nofun, .close line name, Nat.succ_ne_zero _, rfl, rfl⟩
        · cases hclose
    · exact absurd List.mem_cons_self (h _)

/-- Pieces that resolve give their events in order, and the events match. -/
theorem ofMarkup_resolves {opened : Opened} {ms : List (Nat × Markup)}
    (h : ∀ e, .fault e ∉ ofMarkup opened ms) :
    List.Forall₂ Resolves (ms.filter fun p => p.2 ≠ .ignorable) (ofMarkup opened ms) ∧
      Matched opened.length (ofMarkup opened ms) := by
  induction ms generalizing opened with
  | nil => exact ⟨.nil, trivial⟩
  | cons p ms ih =>
    obtain ⟨hp, heq⟩ | ⟨e, opened', hp, hresolves, hfits, hdepth, heq⟩ := ofMarkup_cons h
    · rw [heq] at h ⊢
      rw [List.filter_cons_of_neg (by simpa using hp)]
      exact ih h
    · rw [heq] at h ⊢
      rw [List.filter_cons_of_pos (by simpa using hp)]
      obtain ⟨hmore, hmatched⟩ := ih fun f hf => h f (List.mem_cons_of_mem e hf)
      exact ⟨.cons hresolves hmore, hfits, hdepth ▸ hmatched⟩

end Event

/-! ### Whole documents -/

namespace Builder

variable {b : Builder}

theorem finish_open (h : b.depth ≠ 0) (line : Nat) :
    b.finish line = .error ⟨line, .openElement⟩ := by
  have hopened : b.opened ≠ [] := fun hnil => h (List.length_eq_zero_iff.2 hnil)
  simp [finish, hopened]

theorem finish_without_root (h : b.depth = 0) (hroots : b.roots = 0) (line : Nat) :
    b.finish line = .error ⟨1, .noRoot⟩ := by
  have hopened : b.opened = [] := List.length_eq_zero_iff.1 h
  have hroot : b.root = none := by simpa [roots] using hroots
  simp [finish, hopened, hroot]

theorem finish_with_root (h : b.depth = 0) (hroots : b.roots ≠ 0) (line : Nat) :
    ∃ root, b.finish line = .ok root ∧ root.marks = b.marks := by
  have hopened : b.opened = [] := List.length_eq_zero_iff.1 h
  cases hroot : b.root with
  | none => exact absurd (by rw [roots, hroot]; rfl) hroots
  | some root => exact ⟨root, by simp [finish, hopened, hroot], by simp [marks, hopened, hroot]⟩

end Builder

section Documents

variable {es : List Event}

/-- The builder at the end of events that complete at most one element outside all others. -/
theorem exists_builder (hmatched : Event.Matched 0 es) (h : Event.completed 0 es ≤ 1) :
    ∃ b, Builder.feedAll {} es = .ok b ∧ (∀ line, ofEvents es line = b.finish line) ∧
      b.depth = Event.openAfter 0 es ∧ b.roots = Event.completed 0 es ∧
      b.marks = (Event.within 0 es).flatMap Event.marks := by
  have hbound : Builder.roots {} + Event.completed 0 es ≤ 1 := by
    simpa [Builder.roots] using h
  obtain ⟨b, hfeed, hdepth, hroots, hmarks⟩ := Builder.feedAll_takes (b := {}) hmatched hbound
  refine ⟨b, hfeed, fun line => by rw [ofEvents, hfeed], hdepth, ?_, hmarks⟩
  rw [hroots]
  exact Nat.zero_add _

/-- One element that begins outside all others and none that is left open: the document is read. -/
theorem ofEvents_ok (hmatched : Event.Matched 0 es)
    (h : Event.openAfter 0 es = 0 ∧ Event.begun 0 es = 1) (line : Nat) :
    ∃ root, ofEvents es line = .ok root ∧
      root.marks = (Event.within 0 es).flatMap Event.marks := by
  have hbegun := Event.begun_eq hmatched
  obtain ⟨b, -, hread, hdepth, hroots, hmarks⟩ := exists_builder hmatched (by omega)
  obtain ⟨root, hfinish, hroot⟩ := b.finish_with_root (by omega) (by omega) line
  exact ⟨root, (hread line).trans hfinish, hroot.trans hmarks⟩

/-- Why events that end on `line` give no document. Either an element is left open at their end, or
there is none, or a second one is completed outside all others. The last is an error of the event
that completes it: it is raised there, whatever follows. -/
def Refused (es : List Event) (line : Nat) (err : Error) : Prop :=
  (err.fault.message = "unexpected end of document" ∧ err.line = line ∧
    Event.openAfter 0 es ≠ 0 ∧ Event.completed 0 es ≤ 1) ∨
  (err.fault.message = "document has no root element" ∧ err.line = 1 ∧
    Event.openAfter 0 es = 0 ∧ Event.begun 0 es = 0) ∨
  (err.fault.message = "document has more than one root element" ∧
    ∃ before e after b, es = before ++ e :: after ∧ Event.completed 0 before = 1 ∧
      e.Completes (Event.openAfter 0 before) = true ∧ err.line = e.line ∧
      Builder.feedAll {} before = .ok b ∧ b.feed e = .error err)

theorem ofEvents_second (hmatched : Event.Matched 0 es) (h : 1 < Event.completed 0 es)
    (line : Nat) : ∃ err, ofEvents es line = .error err ∧ Refused es line err := by
  obtain ⟨before, e, after, rfl, hcount, hcompletes⟩ := Event.exists_completing h
  obtain ⟨hbefore, -⟩ := Event.matched_append.1 hmatched
  obtain ⟨b, hfeed, -, hdepth, hroots, -⟩ := exists_builder hbefore hcount.le
  have hrefused : b.feed e = .error ⟨e.line, .manyRoots⟩ :=
    Builder.feed_refused (hdepth ▸ hcompletes) (by omega)
  refine ⟨⟨e.line, .manyRoots⟩, ?_, .inr (.inr ⟨rfl, before, e, after, b, rfl, hcount, hcompletes,
    rfl, hfeed, hrefused⟩)⟩
  rw [ofEvents, Builder.feedAll_append hfeed, Builder.feedAll, hrefused]

/-- Every other document is refused. -/
theorem ofEvents_error (hmatched : Event.Matched 0 es)
    (h : ¬ (Event.openAfter 0 es = 0 ∧ Event.begun 0 es = 1)) (line : Nat) :
    ∃ err, ofEvents es line = .error err ∧ Refused es line err := by
  by_cases hmany : 1 < Event.completed 0 es
  · exact ofEvents_second hmatched hmany line
  · have hbegun := Event.begun_eq hmatched
    obtain ⟨b, -, hread, hdepth, hroots, -⟩ := exists_builder hmatched (Nat.not_lt.1 hmany)
    by_cases hopen : Event.openAfter 0 es = 0
    · have hnone : Event.begun 0 es = 0 := by omega
      refine ⟨_, (hread line).trans (b.finish_without_root (by omega) (by omega) line), ?_⟩
      exact .inr (.inl ⟨rfl, rfl, hopen, hnone⟩)
    · refine ⟨_, (hread line).trans (b.finish_open (by omega) line), ?_⟩
      exact .inl ⟨rfl, rfl, hopen, Nat.not_lt.1 hmany⟩

/-- **A document has one root.** Let the pieces of a document resolve, and let every end tag close
the innermost open element. Each piece that is not ignorable gives one event, with its line. The
document is read exactly if no element is left open and one element begins outside all others. The
tree, written out, is the events without the texts outside of it. Otherwise one of three errors says
why. -/
theorem document_has_one_root {ms : List (Nat × Markup)} (h : Resolvable ms) (line : Nat) :
    let es := Event.ofMarkup [] ms
    List.Forall₂ Event.Resolves (ms.filter fun p => p.2 ≠ .ignorable) es ∧
    ((∃ root, ofEvents es line = .ok root) ↔
      Event.openAfter 0 es = 0 ∧ Event.begun 0 es = 1) ∧
    (∀ root, ofEvents es line = .ok root →
      root.marks = (Event.within 0 es).flatMap Event.marks) ∧
    ∀ err, ofEvents es line = .error err → Refused es line err := by
  intro es
  obtain ⟨hresolves, hmatched⟩ : _ ∧ Event.Matched 0 es := Event.ofMarkup_resolves h
  refine ⟨hresolves, ?_⟩
  by_cases hone : Event.openAfter 0 es = 0 ∧ Event.begun 0 es = 1
  · obtain ⟨root, hread, hmarks⟩ := ofEvents_ok hmatched hone line
    rw [hread]
    refine ⟨⟨fun _ => hone, fun _ => ⟨root, rfl⟩⟩, ?_, nofun⟩
    intro root' heq
    cases heq
    exact hmarks
  · obtain ⟨err, hread, hwhy⟩ := ofEvents_error hmatched hone line
    rw [hread]
    refine ⟨⟨?_, fun h => absurd h hone⟩, nofun, ?_⟩
    · rintro ⟨root, hroot⟩
      cases hroot
    · intro err' heq
      cases heq
      exact hwhy

/-- A comment, an empty element and texts inside and outside of the root, then a second element
that is not closed. -/
theorem document_has_one_root_mixed :
    (∃ root, ofEvents (Event.ofMarkup [] [(1, .ignorable), (1, .text ['\n']), (2, .start ['a']),
        (2, .text "&lt;".toList), (3, .empty ['b']), (3, .data ['<']), (4, .close ['a']),
        (4, .text ['z'])]) 5 = .ok root ∧
      root.marks = [.opens ⟨none, "a", [], 2⟩, .text "<" 2, .opens ⟨none, "b", [], 3⟩, .closes,
        .text "<" 3, .closes]) ∧
    ¬ ∃ root, ofEvents (Event.ofMarkup [] [(1, .empty ['a']), (2, .start ['b'])]) 3 = .ok root := by
  have hevents : Event.ofMarkup [] [(1, .ignorable), (1, .text ['\n']), (2, .start ['a']),
      (2, .text "&lt;".toList), (3, .empty ['b']), (3, .data ['<']), (4, .close ['a']),
      (4, .text ['z'])] = [.text "\n" 1, .start ⟨none, "a", [], 2⟩, .text "<" 2,
        .empty ⟨none, "b", [], 3⟩, .text "<" 3, .close 4, .text "z" 4] := by decide +kernel
  have hopen : Event.ofMarkup [] [(1, .empty ['a']), (2, .start ['b'])] =
      [.empty ⟨none, "a", [], 1⟩, .start ⟨none, "b", [], 2⟩] := by decide +kernel
  obtain ⟨-, hread, hmarks, -⟩ :=
    document_has_one_root (fun e he => by rw [hevents] at he; simp at he) 5
  obtain ⟨-, hunread, -⟩ := document_has_one_root (fun e he => by rw [hopen] at he; simp at he) 3
  rw [hevents] at hread hmarks ⊢
  rw [hopen] at hunread ⊢
  obtain ⟨root, hroot⟩ := hread.2 (by decide)
  exact ⟨⟨root, hroot, hmarks root hroot⟩, fun h => absurd (hunread.1 h) (by decide)⟩

end Documents

end Scenario.Xml
