import Scenario.Entity.Dump
import Scenario.Proofs.Listings
import Scenario.Proofs.Locality
import Scenario.Proofs.Origins
import Scenario.Proofs.Spelling

/-!
# The lines of a dump

A dump writes one line for each instruction, in the order of the walk. Names come from the names of
elements and attributes, which have no blanks, and the rest of a line is fixed, apart from the name
of the entity and the sources of expressions. These are shown as they are, with their line feeds, so
a dump can have more lines than instructions. **`dump_lines`** says how many it has, and when they
are the lines of the instructions.

* `Text.lines` reads the lines of a text, and `Text.written` writes lines one below the other;
  `Text.length_lines_written` and `Text.lines_written` relate the two.
* `Instruction.Lined`: the line of an instruction has no line feeds but those of its texts.
  `Origin.lined` shows this of the programs that are made from documents.
-/

namespace Scenario

namespace Text

/-! ### Lines and line feeds -/

/-- The lines of a text. A line ends with a line feed, which a carriage return may precede; the last
one may end with the text. -/
def lines : List Char → List (List Char)
  | [] => []
  | '\n' :: cs => [] :: lines cs
  | '\r' :: '\n' :: cs => [] :: lines cs
  | c :: cs =>
    match lines cs with
    | [] => [[c]]
    | l :: ls => (c :: l) :: ls

/-- The number of line feeds in texts. -/
def breaks (ss : List String) : Nat := (ss.flatMap String.toList).count '\n'

@[simp] theorem breaks_nil : breaks [] = 0 := rfl

@[simp] theorem breaks_append (ss ts : List String) :
    breaks (ss ++ ts) = breaks ss + breaks ts := by
  simp [breaks]

theorem breaks_cons (s : String) (ss : List String) : breaks (s :: ss) = breaks [s] + breaks ss :=
  breaks_append [s] ss

@[simp] theorem breaks_concat (s t : String) : breaks [s ++ t] = breaks [s] + breaks [t] := by
  simp [breaks]

theorem breaks_eq_zero_iff {ss : List String} : breaks ss = 0 ↔ ∀ s ∈ ss, '\n' ∉ s.toList := by
  simp [breaks, List.count_eq_zero]

theorem breaks_eq_zero {s : String} (h : '\n' ∉ s.toList) : breaks [s] = 0 :=
  breaks_eq_zero_iff.2 (by simpa using h)

theorem breaks_intercalate {s : String} (hs : breaks [s] = 0) (ss : List String) :
    breaks [s.intercalate ss] = breaks ss := by
  have hcount : s.toList.count '\n' = 0 := by simpa [breaks] using hs
  have hlist : ∀ ls : List (List Char),
      (s.toList.intercalate ls).count '\n' = (ls.flatMap id).count '\n' := by
    intro ls
    induction ls with
    | nil => simp
    | cons l ls ih =>
      cases ls with
      | nil => simp
      | cons l' ls =>
        rw [List.intercalate_cons_cons, List.count_append, List.count_append, hcount, ih]
        simp
  rw [breaks, breaks, List.flatMap_singleton, String.toList_intercalate, hlist, List.flatMap_map]
  rfl

theorem lines_eq_nil_iff {cs : List Char} : lines cs = [] ↔ cs = [] := by
  constructor
  · intro h
    fun_cases lines cs <;> simp_all [lines]
  · rintro rfl
    rfl

/-- The lines of a text that ends with a line feed are as many as its line feeds. -/
theorem length_lines {cs : List Char} (h : ∀ c ∈ cs.getLast?, c = '\n') :
    (lines cs).length = cs.count '\n' := by
  have hrest : ∀ {c : Char} {cs : List Char}, (∀ d ∈ (c :: cs).getLast?, d = '\n') →
      ∀ d ∈ cs.getLast?, d = '\n' := by
    intro c cs h d hd
    refine h d ?_
    rw [List.getLast?_cons, Option.mem_def.1 hd]
    rfl
  fun_induction lines cs with
  | case1 => rfl
  | case2 cs ih => rw [List.length_cons, ih (hrest h), List.count_cons_self]
  | case3 cs ih =>
    rw [List.length_cons, ih (hrest (hrest h)), List.count_cons_of_ne (by decide),
      List.count_cons_self]
  | case4 c cs hfeed hreturn hnil ih =>
    -- the last character would be no line feed
    obtain rfl := lines_eq_nil_iff.1 hnil
    exact absurd (h c rfl) hfeed
  | case5 c cs hfeed hreturn l ls hcons ih =>
    rw [List.count_cons_of_ne hfeed, ← ih (hrest h), hcons]
    rfl

/-- A line without a line feed in it and without a carriage return at its end is a line of its
own. -/
theorem lines_append {l : List Char} (hfeed : '\n' ∉ l) (hreturn : l.getLast? ≠ some '\r')
    (rest : List Char) : lines (l ++ '\n' :: rest) = l :: lines rest := by
  induction l with
  | nil => rfl
  | cons c l ih =>
    obtain ⟨hc, hl⟩ := not_or.1 (mt List.mem_cons.2 hfeed)
    have hlast : l.getLast? ≠ some '\r' := by
      intro hr
      rw [List.getLast?_cons, hr] at hreturn
      exact hreturn rfl
    rw [List.cons_append, lines, ih hl hlast]
    · exact fun h => hc h.symm
    · rintro cs rfl heq
      cases l with
      | nil => exact hreturn rfl
      | cons d l =>
        obtain ⟨rfl, -⟩ := List.cons.inj heq
        exact hl List.mem_cons_self

/-- Lines written one below the other. -/
def written (ls : List String) : List Char := ls.flatMap fun l => l.toList ++ ['\n']

theorem written_cons (l : String) (ls : List String) :
    written (l :: ls) = l.toList ++ '\n' :: written ls := by
  simp [written]

theorem length_lines_written (ls : List String) :
    (lines (written ls)).length = ls.length + breaks ls := by
  have hlast : ∀ c ∈ (written ls).getLast?, c = '\n' := by
    intro c hc
    induction ls with
    | nil => cases hc
    | cons l ls ih =>
      rw [written_cons, List.getLast?_append, List.getLast?_cons] at hc
      cases hrest : (written ls).getLast? with
      | none =>
        rw [hrest] at hc
        exact (Option.some.inj hc).symm
      | some d =>
        rw [hrest] at hc ih
        exact ih hc
  rw [length_lines hlast]
  clear hlast
  induction ls with
  | nil => rfl
  | cons l ls ih =>
    have hl : breaks [l] = l.toList.count '\n' := by simp [breaks]
    rw [written_cons, List.count_append, List.count_cons_self, ih, List.length_cons, breaks_cons,
      hl]
    omega

/-- Lines without line feeds, and without a carriage return at the end, are read back. -/
theorem lines_written {ls : List String} (hbreaks : breaks ls = 0)
    (hreturn : ∀ l ∈ ls, l.toList.getLast? ≠ some '\r') :
    lines (written ls) = ls.map String.toList := by
  induction ls with
  | nil => rfl
  | cons l ls ih =>
    obtain ⟨hl, hls⟩ := List.forall_mem_cons.1 (breaks_eq_zero_iff.1 hbreaks)
    obtain ⟨hlast, hreturn'⟩ := List.forall_mem_cons.1 hreturn
    rw [written_cons, lines_append hl hlast, ih (breaks_eq_zero_iff.2 hls) hreturn', List.map_cons]

end Text

/-! ### The line of an instruction -/

/-- The texts that dumps show of a tag. -/
def Tag.sources : Tag → List String
  | expression e => [e.source]
  | mutex name timeout => (name.toList ++ timeout.toList).map Compiled.source
  | _ => []

/-- What dumps show of a tag has no line feeds but those of its texts. -/
structure Tag.Lined (t : Tag) : Prop where
  typeName : '\n' ∉ t.typeName.toList
  labels : ∀ f ∈ t.fields, '\n' ∉ f.1.toList
  values : Text.breaks (t.fields.map Prod.snd) = Text.breaks t.sources

namespace Instruction

open Text

variable {i : Instruction}

/-- What dumps show of an instruction has no line feeds but those of its texts. -/
structure Lined (i : Instruction) : Prop where
  name : '\n' ∉ i.name.toList
  tag : i.tag.Lined

theorem breaks_line (n : Nat) : breaks [toString n] = 0 := by
  refine breaks_eq_zero fun hmem => ?_
  have hdigit := Nat.isDigit_of_mem_toDigits (b := 10) (n := n) (by decide) (by decide)
    (by simpa using hmem)
  cases hdigit

theorem breaks_indentation (depth : Nat) : breaks [indentation depth] = 0 := by
  refine breaks_eq_zero fun hmem => ?_
  rw [indentation, String.toList_ofList] at hmem
  cases List.eq_of_mem_replicate hmem

theorem breaks_dumpFields (h : i.Lined) : breaks [i.dumpFields] = breaks i.tag.sources := by
  have hfields : ∀ fs : List (String × String), (∀ f ∈ fs, '\n' ∉ f.1.toList) →
      breaks (fs.map fun f => f.1 ++ "=" ++ f.2) = breaks (fs.map Prod.snd) := by
    intro fs hfs
    induction fs with
    | nil => rfl
    | cons f fs ih =>
      obtain ⟨hf, hfs'⟩ := List.forall_mem_cons.1 hfs
      rw [List.map_cons, List.map_cons, breaks_cons, breaks_cons f.2, ih hfs', breaks_concat,
        breaks_concat, breaks_eq_zero hf]
      have hequals : breaks ["="] = 0 := by decide
      omega
  rw [← h.tag.values, dumpFields]
  split
  · next hempty =>
    rw [List.isEmpty_iff.1 hempty]
    rfl
  · rw [breaks_concat, breaks_concat, breaks_intercalate (by decide), hfields _ h.tag.labels]
    have hopen : breaks [" ["] = 0 := by decide
    have hclose : breaks ["]"] = 0 := by decide
    omega

theorem dumpLine_eq (i : Instruction) (entity : String) (depth : Nat) :
    i.dumpLine entity depth = indentation depth ++ ("<" ++ i.name ++ "> " ++ i.tag.typeName ++
      " line " ++ toString i.line ++ " of '" ++ entity ++ "'") ++ i.dumpFields :=
  rfl

/-- The line feeds in the line of an instruction. -/
theorem breaks_dumpLine (h : i.Lined) (entity : String) (depth : Nat) :
    breaks [i.dumpLine entity depth] = breaks [entity] + breaks i.tag.sources := by
  rw [dumpLine_eq]
  simp only [breaks_concat, breaks_indentation, breaks_line, breaks_dumpFields h,
    breaks_eq_zero h.name, breaks_eq_zero h.tag.typeName]
  have hparts : breaks ["<"] = 0 ∧ breaks ["> "] = 0 ∧ breaks [" line "] = 0 ∧
      breaks [" of '"] = 0 ∧ breaks ["'"] = 0 := by decide
  omega

/-- It ends with a quote or with a bracket. -/
theorem getLast?_dumpLine (i : Instruction) (entity : String) (depth : Nat) :
    (i.dumpLine entity depth).toList.getLast? ≠ some '\r' := by
  have hquote : "'".toList.getLast? = some '\'' := rfl
  have hbracket : "]".toList.getLast? = some ']' := rfl
  rw [dumpLine_eq, dumpFields]
  simp only [String.toList_append, List.getLast?_append]
  split
  · rw [hquote]
    show some '\'' ≠ some '\r'
    decide
  · simp only [String.toList_append, List.getLast?_append, hbracket]
    show some ']' ≠ some '\r'
    decide

end Instruction

/-! ### The instructions of a document -/

/-- The names that a tag carries have no blanks. -/
structure Tag.Spelled (t : Tag) : Prop where
  data : ∀ {name mode fallback}, t = .data name mode fallback → Xml.Spaceless name.toList
  invoke : ∀ {name}, t = .invoke name → Xml.Spaceless name.toList

/-- The names of an instruction have no blanks. -/
structure Instruction.Spelled (i : Instruction) : Prop where
  name : Xml.Spaceless i.name.toList
  tag : i.tag.Spelled

namespace Assembly

open Parse

variable {cx : Assembly} {site : Site} {w w' : World} {h : Xml.Head} {children : List Xml.Node}
  {r : Resolved} {p : Plan}

/-- A data tag has the name of its element. -/
theorem name_of_data (hp : Gives (cx.plan site h children r) w p w') {name : String}
    {mode : DataMode} {fallback : Bool} (htag : p.tag = .data name mode fallback) :
    name = h.name := by
  have hmakes : r.maker.Makes fun t => ∀ name mode fallback, t = .data name mode fallback →
      ∃ f, r.maker = .data f := by
    cases r.maker <;> simp [Maker.Makes]
  obtain ⟨f, hmaker⟩ := tag_of_gives_plan hmakes hp name mode fallback htag
  rw [plan, hmaker] at hp
  obtain ⟨mode', w₁, -, hp⟩ := gives_bind.1 hp
  obtain ⟨rfl, -⟩ := gives_pure.1 hp
  cases htag
  rfl

/-- A call of a resource names the one that its element stands for. -/
theorem target_of_invoke (hp : Gives (cx.plan site h children r) w p w') {name : String}
    (htag : p.tag = .invoke name) : ∃ t, r.target = some t ∧ name = t.name := by
  have hmakes : r.maker.Makes fun t => ∀ name, t = .invoke name → r.maker = .invoke := by
    cases r.maker <;> simp [Maker.Makes]
  have hmaker := tag_of_gives_plan hmakes hp name htag
  rw [plan, hmaker] at hp
  obtain ⟨_, w₁, -, hp⟩ := gives_bind.1 hp
  cases htarget : r.target with
  | none =>
    rw [htarget] at hp
    exact absurd hp gives_throw
  | some t =>
    rw [htarget] at hp
    obtain ⟨found, w₂, -, hp⟩ := gives_bind.1 hp
    cases found with
    | none => exact absurd hp gives_throw
    | some key =>
      obtain ⟨rfl, -⟩ := gives_pure.1 hp
      cases htag
      exact ⟨t, rfl, rfl⟩

theorem spaceless_expression : Xml.Spaceless "expression".toList := .of_all (by decide)

theorem spaceless_defaultName : Xml.Spaceless Output.defaultName.toList := .of_all (by decide)

theorem covers_spelled (hkeyed : cx.locator.Keyed) :
    cx.Covers Xml.Head.Spelled Instruction.Spelled where
  text _ := ⟨spaceless_expression, by simp, by simp⟩
  attr hh hmem line mode :=
    ⟨hh.attr _ hmem, by rintro _ _ _ ⟨⟩; exact hh.attr _ hmem, by simp⟩
  parameter line mode :=
    ⟨spaceless_defaultName, by rintro _ _ _ ⟨⟩; exact spaceless_defaultName, by simp⟩
  element hh hr _ _ hp := by
    refine ⟨hh.name, ⟨fun htag => ?_, fun htag => ?_⟩⟩
    · rw [name_of_data hp htag]
      exact hh.name
    · obtain ⟨t, ht, rfl⟩ := target_of_invoke hp htag
      rw [hkeyed _ t (Registry.resolve?_target hr ht).2]
      exact hh.name

end Assembly

theorem Xml.Spaceless.unbroken {cs : List Char} (h : Spaceless cs) : '\n' ∉ cs := by
  intro hmem
  cases h _ hmem

/-- A tag without fields. -/
theorem Tag.lined_of_typeName {t : Tag} {typeName : String} (hname : t.typeName = typeName)
    (htype : '\n' ∉ typeName.toList) (hfields : t.fields = []) (hsources : t.sources = []) :
    t.Lined := by
  refine ⟨hname ▸ htype, ?_, ?_⟩
  · rw [hfields]
    exact List.forall_mem_nil _
  · rw [hfields, hsources]
    rfl

/-- With the built-in tags, a dump shows nothing but names without blanks, words of its own, and
texts. -/
theorem Tag.Spelled.lined {t : Tag} (h : t.Spelled)
    (hinner : t = .scenario ∨ Builtin.Inner t) : t.Lined := by
  cases t with
  | scenario => exact Tag.lined_of_typeName (rfl : _ = "scenario") (by decide) rfl rfl
  | literal text => exact Tag.lined_of_typeName (rfl : _ = "literal") (by decide) rfl rfl
  | conditional => exact Tag.lined_of_typeName (rfl : _ = "if") (by decide) rfl rfl
  | alternative => exact Tag.lined_of_typeName (rfl : _ = "else") (by decide) rfl rfl
  | block typeName =>
    obtain hscenario | hinner := hinner
    · cases hscenario
    · exact hinner.elim
  | fixed typeName kind v whenSkipped =>
    obtain hscenario | hinner := hinner
    · cases hscenario
    · exact hinner.elim
  | data n mode fallback =>
    have hn := Text.breaks_eq_zero (h.data rfl).unbroken
    have hmode : Text.breaks [mode.name] = 0 := by cases mode <;> decide
    have htype : ∀ b : Bool, '\n' ∉ (if b then "default" else "data").toList := by decide
    have hlabels : ∀ f ∈ [("name", n), ("mode", mode.name)], '\n' ∉ f.1.toList := by simp
    refine ⟨htype fallback, hlabels, ?_⟩
    show Text.breaks [n, mode.name] = 0
    rw [Text.breaks_cons, hn, hmode]
  | expression e =>
    have htype : '\n' ∉ "expression".toList := by decide
    have hlabels : ∀ f ∈ [("value", e.source)], '\n' ∉ f.1.toList := by simp
    exact ⟨htype, hlabels, rfl⟩
  | mutex n timeout =>
    have htype : '\n' ∉ "mutex".toList := by decide
    refine ⟨htype, ?_, ?_⟩
    · cases n <;> cases timeout <;> simp [Tag.fields, Tag.sourceField]
    · cases n <;> cases timeout <;> rfl
  | invoke target =>
    have htype : '\n' ∉ "invoke".toList := by decide
    have hlabels : ∀ f ∈ [("target", target)], '\n' ∉ f.1.toList := by simp
    exact ⟨htype, hlabels, Text.breaks_eq_zero (h.invoke rfl).unbroken⟩
  | bean b =>
    obtain hscenario | rfl | rfl | rfl := hinner
    · cases hscenario
    · exact ⟨by decide, by decide, by decide⟩
    · exact ⟨by decide, by decide, by decide⟩
    · exact ⟨by decide, by decide, by decide⟩

/-! ### The lines of a dump -/

namespace Program

open Text

/-- The texts that the dump of a program shows. -/
def sources (p : Program) : List String := p.labels.flatMap fun x => x.2.tag.sources

/-- The lines of a dump as they are written: those of the instructions, in the order of the walk. -/
def dumpLines (p : Program) (entity : String) : List String :=
  (Listing.ofTree p).walk.map fun x => x.2.label.2.dumpLine entity x.1

theorem toList_dump (p : Program) (entity : String) :
    (p.dump entity).toList = written (p.dumpLines entity) := by
  rw [dump, dumpLines, written, String.toList_join, List.flatMap_map, List.flatMap_map]
  simp

/-- The line feeds in the lines of instructions. -/
theorem breaks_lines {entity : String} {xs : List (Nat × Row (NodeId × Instruction))}
    (h : ∀ x ∈ xs, x.2.label.2.Lined) :
    breaks (xs.map fun x => x.2.label.2.dumpLine entity x.1) = xs.length * breaks [entity] +
      breaks ((xs.map fun x => x.2.label).flatMap fun x => x.2.tag.sources) := by
  induction xs with
  | nil => simp
  | cons x xs ih =>
    obtain ⟨hx, hxs⟩ := List.forall_mem_cons.1 h
    rw [List.map_cons, breaks_cons, Instruction.breaks_dumpLine hx, ih hxs, List.map_cons,
      List.flatMap_cons, breaks_append, List.length_cons, Nat.succ_mul]
    omega

variable {t : Tree Instruction} {entity : String}

theorem map_label_walk (t : Tree Instruction) :
    ((Listing.ofTree t.number).walk.map fun x => x.2.label) = Tree.labels t.number := by
  rw [Listing.walk_ofTree, List.map_map, ← Tree.map_label_walkFrom 0 none t.number]
  rfl

theorem length_walk (t : Tree Instruction) :
    (Listing.ofTree t.number).walk.length = (Listing.ofTree t.number).size := by
  have hplaces := congrArg List.length (Tree.places_numberFrom 0 t)
  have hlabels := congrArg List.length (map_label_walk t)
  rw [List.length_map, List.length_range'] at hplaces
  rw [List.length_map] at hlabels
  rw [(Listing.shows_ofTree t).1, hlabels]
  exact hplaces

/-- The line feeds in the lines of a dump. -/
theorem breaks_dumpLines (h : ∀ x ∈ Tree.labels t.number, x.2.Lined) :
    breaks (dumpLines t.number entity) =
      (Listing.ofTree t.number).size * breaks [entity] + breaks (sources t.number) := by
  rw [dumpLines, breaks_lines, map_label_walk, length_walk]
  · rfl
  · intro x hx
    refine h x.2.label ?_
    rw [← map_label_walk]
    exact List.mem_map_of_mem hx

/-- A dump has a line for each instruction and one more for each line feed that it shows. -/
theorem length_lines_dump (h : ∀ x ∈ Tree.labels t.number, x.2.Lined) :
    (lines (dump t.number entity).toList).length = (Listing.ofTree t.number).size +
      (Listing.ofTree t.number).size * breaks [entity] + breaks (sources t.number) := by
  rw [toList_dump, length_lines_written, breaks_dumpLines h, dumpLines, List.length_map,
    length_walk, Nat.add_assoc]

/-- Without line feeds in what it shows, a dump has the lines of the instructions. -/
theorem lines_dump (h : ∀ x ∈ Tree.labels t.number, x.2.Lined)
    (hnone : breaks (entity :: sources t.number) = 0) :
    lines (dump t.number entity).toList = (dumpLines t.number entity).map String.toList := by
  rw [breaks_cons, Nat.add_eq_zero_iff] at hnone
  rw [toList_dump]
  refine lines_written ?_ fun l hl => ?_
  · rw [breaks_dumpLines h, hnone.1, hnone.2, Nat.mul_zero]
  · obtain ⟨x, -, rfl⟩ := List.mem_map.1 hl
    exact Instruction.getLast?_dumpLine _ _ _

end Program

namespace Setup

open Parse Text

variable {st : Setup} {p : Program} {cx : Assembly} {root : Xml.Element} {maker : RootMaker}

/-- A program made from a document with the built-in tags is a numbered tree, and what a dump shows
of its instructions has no line feeds but those of its texts. -/
theorem Origin.lined (h : st.Origin p cx root maker) (hreg : st.registry = Builtin.registry) :
    ∃ t : Tree Instruction, p = t.number ∧ ∀ x ∈ Tree.labels t.number, x.2.Lined := by
  obtain ⟨text, hread⟩ := h.read
  obtain ⟨w, w', hgiven⟩ := h.given
  have hspelled : ∀ head, .opens head ∈ root.marks → head.Spelled :=
    fun head hmem => Xml.spelled_of_read hread hmem
  have hbelow := (Assembly.covers_spelled h.keyed).document hspelled hgiven
  have hmade : Builtin.Built p := by
    have law : StepLaw fun _ _ _ => True := by constructor <;> simp
    have hmakes : cx.registry.Makes (· = .scenario) Builtin.Inner := by
      rw [h.registry, hreg]
      exact Builtin.registry_makes
    have hmaker : maker.Makes (· = .scenario) :=
      Builtin.registry_makes.roots (hreg ▸ h.known)
    have hsat := Assembly.sat_document law
      (fun {_ t} _ _ => ⟨trivial, fun _ _ => trivial⟩) hmakes root hmaker
    exact ((hsat w).2 p (congrArg Prod.fst hgiven)).made
  obtain ⟨tag, ts, -, -, rfl⟩ := Assembly.gives_document.1 hgiven
  refine ⟨_, rfl, ?_⟩
  have hroot : root.head.Spelled := hspelled root.head (by
    rw [Xml.Element.marks, Xml.Element.toNode, Xml.Node.marks]
    exact List.mem_cons_self)
  refine List.forall_mem_cons.2 ⟨⟨hroot.name.unbroken, ?_⟩, fun x hx => ⟨?_, ?_⟩⟩
  · have htag : tag = .scenario := hmade.tag
    subst htag
    exact Tag.Spelled.lined ⟨by simp, by simp⟩ (.inl rfl)
  · exact (hbelow x hx).name.unbroken
  · exact (hbelow x hx).tag.lined (.inr (hmade.below x hx))

/-- **The lines of a dump.** In every history with the built-in tags, the dump of an entity consists
of the lines of its instructions, in the order of the walk, each followed by a line feed. It has one
line for each of them and one more for each line feed in the texts that it shows, which are the
name of the entity and the sources of the expressions and of the names and timeouts of the locks. So
it has one line for each instruction exactly if these texts have no line feeds, and then they are
its lines. -/
theorem dump_lines (st : Setup) (hreg : st.registry = Builtin.registry) (qs : List Request)
    {key : EntityKey} {e : Entity} {p : Program} (he : (reached st qs).entity? key = some e)
    (hp : e.program = some p) :
    let n := (Listing.ofTree p).size
    let walk := (Listing.ofTree p).walk
    let line := fun x : Nat × Row (NodeId × Instruction) => (x.2.label.2.dumpLine e.name x.1).toList
    walk.length = n ∧ e.dump.toList = walk.flatMap (fun x => line x ++ ['\n']) ∧
    (lines e.dump.toList).length = n + n * breaks [e.name] + breaks p.sources ∧
    ((lines e.dump.toList).length = n ↔ ∀ s ∈ e.name :: p.sources, '\n' ∉ s.toList) ∧
    (lines e.dump.toList = walk.map line ↔ ∀ s ∈ e.name :: p.sources, '\n' ∉ s.toList) := by
  intro n walk line
  obtain ⟨cx, root, maker, horigin⟩ := origin_reached st qs he hp
  obtain ⟨t, rfl, hlined⟩ := horigin.lined hreg
  have hdump : e.dump = Program.dump t.number e.name := by rw [Entity.dump, hp]
  have hwalk : walk.length = n := Program.length_walk t
  have hlength : (lines e.dump.toList).length =
      n + n * breaks [e.name] + breaks (Program.sources t.number) := by
    rw [hdump]
    exact Program.length_lines_dump hlined
  have hline : (Program.dumpLines t.number e.name).map String.toList = walk.map line :=
    List.map_map
  -- a line for each instruction leaves no room for a line feed
  have hnone : (lines e.dump.toList).length = n →
      breaks (e.name :: Program.sources t.number) = 0 := by
    intro heq
    have hpos : 0 < n := by
      rw [show n = t.size from (Listing.shows_ofTree t).1]
      exact t.size_pos
    have hzero : n * breaks [e.name] = 0 := by omega
    have hname := (Nat.mul_eq_zero.1 hzero).resolve_left (Nat.ne_of_gt hpos)
    rw [breaks_cons]
    omega
  have hlines : breaks (e.name :: Program.sources t.number) = 0 →
      lines e.dump.toList = walk.map line := by
    intro hbreaks
    rw [hdump, Program.lines_dump hlined hbreaks, hline]
  rw [← breaks_eq_zero_iff]
  refine ⟨hwalk, ?_, hlength, ⟨hnone, fun h => ?_⟩, fun h => hnone ?_, hlines⟩
  · rw [hdump, Program.toList_dump, Program.dumpLines, written, List.flatMap_map]
  · rw [hlines h, List.length_map, hwalk]
  · rw [h, List.length_map, hwalk]

/-- A document in memory that is registered and loaded. -/
def loaded (content : String) : List Request :=
  [.change fun s => (s.add (.memory (some content) 1)).1, .register (inMemory 0 "main"),
    .load "main"]

/-- A document of four lines with a call, a branch and two texts. -/
theorem dump_lines_of_call :
    let w := reached { registry := Builtin.registry }
      (loaded "<scenario>\n<log>\n<mutex>a</mutex>\n</log>b</scenario>")
    ∃ e p, w.entity? 0 = some e ∧ e.program = some p ∧ (Listing.ofTree p).size = 5 ∧
      (lines e.dump.toList).length = 5 := by
  intro w
  have hmade : (w.entity? 0).any (fun e => e.program.any fun p =>
      (Listing.ofTree p).size == 5 &&
        decide (∀ s ∈ e.name :: Program.sources p, '\n' ∉ s.toList)) = true := by
    decide +kernel
  obtain ⟨e, he, htest⟩ := (Option.any_eq_true _ _).1 hmade
  obtain ⟨p, hp, htest⟩ := (Option.any_eq_true _ _).1 htest
  obtain ⟨hsize, htexts⟩ := Bool.and_eq_true_iff.1 htest
  have hlines := dump_lines { registry := Builtin.registry } rfl _ he hp
  have hcount := hlines.2.2.2.1.2 (of_decide_eq_true htexts)
  exact ⟨e, p, he, hp, beq_iff_eq.1 hsize, hcount.trans (beq_iff_eq.1 hsize)⟩

/-- A text of two lines takes two lines of the dump: it has three lines for two instructions. -/
theorem dump_breaks_line :
    let w := reached { registry := Builtin.registry } (loaded "<scenario>a\nb</scenario>")
    ∃ e p, w.entity? 0 = some e ∧ e.program = some p ∧ (Listing.ofTree p).size = 2 ∧
      (lines e.dump.toList).length = 3 ∧
      e.dump = "<scenario> scenario line 1 of 'main'\n" ++
        "  <expression> expression line 1 of 'main' [value=a\nb]\n" := by
  intro w
  have hmade : (w.entity? 0).any (fun e => e.program.any fun p =>
      (Listing.ofTree p).size == 2 && (lines e.dump.toList).length == 3 &&
        e.dump == "<scenario> scenario line 1 of 'main'\n" ++
          "  <expression> expression line 1 of 'main' [value=a\nb]\n") = true := by
    decide +kernel
  obtain ⟨e, he, htest⟩ := (Option.any_eq_true _ _).1 hmade
  obtain ⟨p, hp, htest⟩ := (Option.any_eq_true _ _).1 htest
  simp only [Bool.and_eq_true, beq_iff_eq] at htest
  exact ⟨e, p, he, hp, htest.1.1, htest.1.2, htest.2⟩

end Setup

end Scenario
