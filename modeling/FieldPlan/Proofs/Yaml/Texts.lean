import FieldPlan.Proofs.Yaml.Node

/-! Every text in the tree of a document is the text of one of its scalars, or nothing. -/
namespace FieldPlan.Yaml.Node
variable {p : String → Prop} {α β : Type} {post : α → Prop} {n : Nat}

inductive Holds (p : String → Prop) : Node → Prop
  | scalar {tag : Tag} {text : String} : p text → Holds p (.scalar tag text)
  | sequence {tag : Tag} {items : List Node} :
      (∀ item ∈ items, Holds p item) → Holds p (.sequence tag items)
  | mapping {tag : Tag} {entries : List (Node × Node)} :
      (∀ e ∈ entries, Holds p e.1) → (∀ e ∈ entries, Holds p e.2) → Holds p (.mapping tag entries)

/-- The texts that are left to read satisfy `p`, and so do those that anchors name. -/
structure Supplies (p : String → Prop) (s : Input) : Prop where
  tokens : ∀ text isPlain, Token.scalar text isPlain ∈ s.tokens → p text
  anchors : ∀ name node, (name, some node) ∈ s.anchors → Holds p node

/-- What is read from texts with `p` satisfies `post`, and leaves such texts. -/
def Gives (p : String → Prop) (m : Reader α) (post : α → Prop) : Prop :=
  ∀ s a s', Supplies p s → m s = some (a, s') → post a ∧ Supplies p s'

namespace Gives

theorem pure {a : α} (h : post a) : Gives p (Pure.pure a) post := by
  intro s a' s' supplies read
  obtain ⟨rfl, rfl⟩ := Prod.mk.inj (Option.some.inj read)
  exact ⟨h, supplies⟩

theorem bind {m : Reader α} {f : α → Reader β} {post' : β → Prop} (first : Gives p m post)
    (next : ∀ a, post a → Gives p (f a) post') : Gives p (m >>= f) post' := by
  intro s b s' supplies read
  rw [bind_apply, Option.bind_eq_some_iff] at read
  obtain ⟨⟨a, t⟩, found, rest⟩ := read
  obtain ⟨holds, left⟩ := first s a t supplies found
  exact next a holds t b s' left rest

theorem fail : Gives p (fail : Reader α) post := by
  intro s a s' supplies read
  cases read

end Gives

theorem peek_gives :
    Gives p peek fun t => ∀ text isPlain, t = .scalar text isPlain → p text := by
  intro s t s' supplies read
  unfold peek at read
  split at read
  · next first rest shape =>
    obtain ⟨rfl, rfl⟩ := Prod.mk.inj (Option.some.inj read)
    refine ⟨?_, supplies⟩
    rintro text isPlain rfl
    exact supplies.tokens text isPlain (by rw [shape]; exact List.mem_cons_self)
  · cases read

theorem advance_gives : Gives p advance fun _ => True := by
  intro s u s' supplies read
  obtain ⟨-, rfl⟩ := Prod.mk.inj (Option.some.inj read)
  refine ⟨trivial, ?_, supplies.anchors⟩
  intro text isPlain mem
  exact supplies.tokens text isPlain (List.mem_of_mem_drop mem)

theorem get_gives : Gives p (get : Reader Input) fun s => Supplies p s := by
  intro s a s' supplies read
  obtain ⟨rfl, rfl⟩ := Prod.mk.inj (Option.some.inj read)
  exact ⟨supplies, supplies⟩

theorem took_gives (t : Token) : Gives p (took t) fun _ => True := by
  refine peek_gives.bind fun first _ => ?_
  split
  · exact advance_gives.bind fun _ _ => .pure trivial
  · exact .pure trivial

theorem expect_gives (t : Token) : Gives p (expect t) fun _ => True := by
  refine (took_gives t).bind fun found _ => ?_
  split
  · exact .pure trivial
  · exact .fail

theorem anchor?_gives : Gives p anchor? fun _ => True := by
  refine peek_gives.bind fun first _ => ?_
  split
  · exact advance_gives.bind fun _ _ => .pure trivial
  · exact .pure trivial

theorem tag?_gives : Gives p tag? fun _ => True := by
  refine peek_gives.bind fun first _ => ?_
  split
  · exact advance_gives.bind fun _ _ => .pure trivial
  · refine advance_gives.bind fun _ _ => get_gives.bind fun s _ => ?_
    split
    · exact .pure trivial
    · exact .fail
  · exact .pure trivial

theorem properties_gives : Gives p properties fun _ => True := by
  refine anchor?_gives.bind fun name _ => ?_
  split
  · exact tag?_gives.bind fun _ _ => .pure trivial
  · exact tag?_gives.bind fun _ _ => anchor?_gives.bind fun _ _ => .pure trivial

theorem bindAnchor_gives (name : Option String) {node : Option Node}
    (holds : ∀ inner, node = some inner → Holds p inner) :
    Gives p (bindAnchor name node) fun _ => True := by
  intro s u s' supplies read
  obtain ⟨-, rfl⟩ := Prod.mk.inj (Option.some.inj read)
  refine ⟨trivial, ?_⟩
  cases name with
  | none => exact supplies
  | some name =>
    refine ⟨supplies.tokens, ?_⟩
    intro other inner mem
    obtain same | among := List.mem_cons.mp mem
    · exact holds inner (Prod.mk.inj same).2.symm
    · exact supplies.anchors other inner among

theorem openAnchor_gives (name : Option String) : Gives p (openAnchor name) fun _ => True := by
  refine get_gives.bind fun s _ => ?_
  dsimp only
  split
  · exact .fail
  · exact bindAnchor_gives name nofun

theorem separated_gives (isFirst : Bool) {f : Unit → Reader α} (next : Gives p (f ()) post) :
    Gives p (if !isFirst then expect .flowEntry >>= f else f ()) post := by
  split
  · exact (expect_gives _).bind fun _ _ => next
  · exact next

theorem setHandles_gives (handles : List (String × String)) :
    Gives p (modify fun s => { s with handles := handles }) fun _ => True := by
  intro s u s' supplies read
  obtain ⟨-, rfl⟩ := Prod.mk.inj (Option.some.inj read)
  exact ⟨trivial, supplies.tokens, supplies.anchors⟩

/-! ### Nodes -/

/-- What the readers of nodes and of their parts give with a given amount of fuel. -/
structure PartsGive (p : String → Prop) (n : Nat) : Prop where
  node : ∀ place, Gives p (node n place) (Holds p)
  content : ∀ place hasProperties tag, Gives p (content n place hasProperties tag) (Holds p)
  nodeUnless : ∀ place stops, Gives p (nodeUnless n place stops) (Holds p)
  blockItems : Gives p (blockItems n) fun items => ∀ item ∈ items, Holds p item
  looseItems : Gives p (looseItems n) fun items => ∀ item ∈ items, Holds p item
  valueUnless : ∀ place stops, Gives p (valueUnless n place stops) (Holds p)
  blockEntries : Gives p (blockEntries n) fun entries => ∀ e ∈ entries, Holds p e.1 ∧ Holds p e.2
  flowItems : ∀ isFirst, Gives p (flowItems n isFirst) fun items => ∀ item ∈ items, Holds p item
  flowEntries : ∀ isFirst, Gives p (flowEntries n isFirst) fun entries =>
    ∀ e ∈ entries, Holds p e.1 ∧ Holds p e.2

theorem Holds.of_entries {tag : Tag} {entries : List (Node × Node)}
    (h : ∀ e ∈ entries, Holds p e.1 ∧ Holds p e.2) : Holds p (.mapping tag entries) :=
  .mapping (fun e mem => (h e mem).1) fun e mem => (h e mem).2

namespace PartsGive

theorem zero : PartsGive p 0 :=
  ⟨fun _ => .fail, fun _ _ _ => .fail, fun _ _ => .fail, .fail, .fail, fun _ _ => .fail, .fail,
    fun _ => .fail, fun _ => .fail⟩

variable (h : PartsGive p n)
include h

theorem node_succ (place : Place) : Gives p (Node.node (n + 1) place) (Holds p) := by
  rw [Node.node]
  refine peek_gives.bind fun first _ => ?_
  split
  · refine advance_gives.bind fun _ _ => get_gives.bind fun s supplies => ?_
    split
    · next found => exact .pure (supplies.anchors _ _ (Table.mem_of_get? found))
    · exact .fail
  · refine properties_gives.bind fun _ _ => (openAnchor_gives _).bind fun _ _ => ?_
    refine (h.content _ _ _).bind fun inner holds => ?_
    refine (bindAnchor_gives _ ?_).bind fun _ _ => .pure holds
    intro inner' same
    exact Option.some.inj same ▸ holds

theorem blockItems_succ : Gives p (Node.blockItems (n + 1)) fun items =>
    ∀ item ∈ items, Holds p item := by
  rw [Node.blockItems]
  refine (took_gives _).bind fun found _ => ?_
  split
  · refine (h.nodeUnless _ _).bind fun item holds => h.blockItems.bind fun rest all => ?_
    exact .pure (List.forall_mem_cons.mpr ⟨holds, all⟩)
  · exact (expect_gives _).bind fun _ _ => .pure (List.forall_mem_nil _)

theorem looseItems_succ : Gives p (Node.looseItems (n + 1)) fun items =>
    ∀ item ∈ items, Holds p item := by
  rw [Node.looseItems]
  refine (took_gives _).bind fun found _ => ?_
  split
  · refine (h.nodeUnless _ _).bind fun item holds => h.looseItems.bind fun rest all => ?_
    exact .pure (List.forall_mem_cons.mpr ⟨holds, all⟩)
  · exact .pure (List.forall_mem_nil _)

theorem blockEntries_succ : Gives p (Node.blockEntries (n + 1)) fun entries =>
    ∀ e ∈ entries, Holds p e.1 ∧ Holds p e.2 := by
  rw [Node.blockEntries]
  refine (took_gives _).bind fun found _ => ?_
  split
  · refine (h.nodeUnless _ _).bind fun key key_holds => ?_
    refine (h.valueUnless _ _).bind fun value value_holds => ?_
    refine h.blockEntries.bind fun rest all => ?_
    exact .pure (List.forall_mem_cons.mpr ⟨⟨key_holds, value_holds⟩, all⟩)
  · exact (expect_gives _).bind fun _ _ => .pure (List.forall_mem_nil _)

theorem flowItems_succ (isFirst : Bool) : Gives p (Node.flowItems (n + 1) isFirst) fun items =>
    ∀ item ∈ items, Holds p item := by
  rw [Node.flowItems]
  refine (took_gives _).bind fun ended _ => ?_
  split
  · exact .pure (List.forall_mem_nil _)
  refine separated_gives isFirst ((took_gives _).bind fun ended _ => ?_)
  split
  · exact .pure (List.forall_mem_nil _)
  refine (took_gives _).bind fun found _ => ?_
  split
  · refine (h.nodeUnless _ _).bind fun key key_holds => ?_
    refine (h.valueUnless _ _).bind fun value value_holds => ?_
    refine (h.flowItems false).bind fun rest all => ?_
    have single : Holds p (.mapping .map [(key, value)]) :=
      .of_entries (List.forall_mem_singleton.mpr ⟨key_holds, value_holds⟩)
    exact .pure (List.forall_mem_cons.mpr ⟨single, all⟩)
  · refine (h.node _).bind fun item holds => (h.flowItems false).bind fun rest all => ?_
    exact .pure (List.forall_mem_cons.mpr ⟨holds, all⟩)

variable (blank : p "")
include blank

theorem content_succ (place : Place) (hasProperties : Bool) (tag : Option String) :
    Gives p (Node.content (n + 1) place hasProperties tag) (Holds p) := by
  rw [Node.content]
  refine peek_gives.bind fun first texts => ?_
  split
  · split
    · exact h.looseItems.bind fun items all => .pure (.sequence all)
    · split
      · exact .pure (.scalar blank)
      · exact .fail
  · exact advance_gives.bind fun _ _ => .pure (.scalar (texts _ _ rfl))
  · exact advance_gives.bind fun _ _ => (h.flowItems true).bind fun items all =>
      .pure (.sequence all)
  · exact advance_gives.bind fun _ _ => (h.flowEntries true).bind fun entries all =>
      .pure (.of_entries all)
  · split
    · exact .fail
    · exact advance_gives.bind fun _ _ => h.blockItems.bind fun items all => .pure (.sequence all)
  · split
    · exact .fail
    · exact advance_gives.bind fun _ _ => h.blockEntries.bind fun entries all =>
        .pure (.of_entries all)
  · split
    · exact .pure (.scalar blank)
    · exact .fail

theorem nodeUnless_succ (place : Place) (stops : List Token) :
    Gives p (Node.nodeUnless (n + 1) place stops) (Holds p) := by
  rw [Node.nodeUnless]
  refine peek_gives.bind fun first _ => ?_
  split
  · exact .pure (.scalar blank)
  · exact h.node place

theorem valueUnless_succ (place : Place) (stops : List Token) :
    Gives p (Node.valueUnless (n + 1) place stops) (Holds p) := by
  rw [Node.valueUnless]
  refine (took_gives _).bind fun found _ => ?_
  split
  · exact h.nodeUnless place stops
  · exact .pure (.scalar blank)

theorem flowEntries_succ (isFirst : Bool) : Gives p (Node.flowEntries (n + 1) isFirst)
    fun entries => ∀ e ∈ entries, Holds p e.1 ∧ Holds p e.2 := by
  rw [Node.flowEntries]
  refine (took_gives _).bind fun ended _ => ?_
  split
  · exact .pure (List.forall_mem_nil _)
  refine separated_gives isFirst ((took_gives _).bind fun ended _ => ?_)
  split
  · exact .pure (List.forall_mem_nil _)
  refine (took_gives _).bind fun found _ => ?_
  split
  · refine (h.nodeUnless _ _).bind fun key key_holds => ?_
    refine (h.valueUnless _ _).bind fun value value_holds => ?_
    refine (h.flowEntries false).bind fun rest all => ?_
    exact .pure (List.forall_mem_cons.mpr ⟨⟨key_holds, value_holds⟩, all⟩)
  · refine (h.node _).bind fun key holds => (h.flowEntries false).bind fun rest all => ?_
    exact .pure (List.forall_mem_cons.mpr ⟨⟨holds, .scalar blank⟩, all⟩)

end PartsGive

theorem parts_give (blank : p "") : ∀ n, PartsGive p n := by
  intro n
  induction n with
  | zero => exact .zero
  | succ n ih =>
    exact {
      node := ih.node_succ
      content := ih.content_succ blank
      nodeUnless := ih.nodeUnless_succ blank
      blockItems := ih.blockItems_succ
      looseItems := ih.looseItems_succ
      valueUnless := ih.valueUnless_succ blank
      blockEntries := ih.blockEntries_succ
      flowItems := ih.flowItems_succ
      flowEntries := ih.flowEntries_succ blank }

/-! ### Documents -/

theorem directives_gives (n : Nat) (hasVersion : Bool) (handles : List (String × String)) :
    Gives p (directives n hasVersion handles) fun _ => True := by
  induction n generalizing hasVersion handles with
  | zero => exact .fail
  | succ n ih =>
    rw [directives]
    refine peek_gives.bind fun first _ => ?_
    split
    · refine advance_gives.bind fun _ _ => ?_
      split
      · exact .fail
      · exact ih true handles
    · refine advance_gives.bind fun _ _ => ?_
      split
      · exact .fail
      · exact ih hasVersion _
    · exact advance_gives.bind fun _ _ => ih hasVersion handles
    · exact .pure trivial

theorem finish_gives (n : Nat) : Gives p (finish n) fun _ => True := by
  induction n with
  | zero => exact .fail
  | succ n ih =>
    rw [finish]
    refine (took_gives _).bind fun ended _ => ?_
    split
    · exact ih
    · exact expect_gives _

theorem document_gives (blank : p "") (n : Nat) : Gives p (document n) (Holds p) := by
  have parts := parts_give blank n
  refine peek_gives.bind fun first _ => ?_
  split
  · refine (parts.node _).bind fun root holds => (finish_gives n).bind fun _ _ => .pure holds
  refine (took_gives _).bind fun ended _ => ?_
  split
  · exact .pure (.scalar blank)
  refine (directives_gives n false []).bind fun handles _ => ?_
  refine (setHandles_gives handles).bind fun _ _ => (expect_gives _).bind fun _ _ => ?_
  refine peek_gives.bind fun next _ => ?_
  have closed : ∀ root, Holds p root → Gives p (finish n >>= fun _ => Pure.pure root) (Holds p) :=
    fun root holds => (finish_gives n).bind fun _ _ => .pure holds
  split
  · exact closed nothing (.scalar blank)
  · exact (parts.node _).bind closed

theorem parse?_holds {text : String} {root : Node} {tokens : List Token}
    (scanned : tokens? text = some tokens) (read : parse? text = some root) (blank : p "")
    (texts : ∀ text isPlain, Token.scalar text isPlain ∈ tokens → p text) : Holds p root := by
  obtain ⟨_, here, read⟩ := Option.bind_eq_some_iff.mp read
  obtain rfl := Option.some.inj (scanned.symm.trans here)
  obtain ⟨⟨found, left⟩, run, same⟩ := Option.bind_eq_some_iff.mp read
  obtain rfl := Option.some.inj same
  have supplies : Supplies p ⟨tokens, [], commonHandles⟩ := ⟨texts, nofun⟩
  exact (document_gives blank _ _ _ _ supplies run).1

/-! ### Values -/

def Spells (p : String → Prop) (v : Value) : Prop := ∀ text, v = .str text → p text

theorem value?_eq_str_iff {tag : Tag} {given text : String} :
    tag.value? given = some (.str text) ↔ tag = .str ∧ text = given := by
  constructor
  · intro read
    cases tag <;> simp [Tag.value?] at read ⊢
    exact read.symm
  · rintro ⟨rfl, rfl⟩
    rfl

theorem Holds.spells {node : Node} {v : Value} (h : Holds p node) (read : value? node = some v) :
    Spells p v := by
  rintro text rfl
  cases h with
  | @scalar tag given holds =>
    rw [value?, value?_eq_str_iff] at read
    exact read.2 ▸ holds
  | sequence _ =>
    rw [value?] at read
    split at read
    · obtain ⟨items, -, same⟩ := Option.map_eq_some_iff.mp read
      cases same
    · cases read
  | mapping _ _ =>
    rw [value?] at read
    split at read
    · obtain ⟨entries, -, same⟩ := Option.map_eq_some_iff.mp read
      cases same
    · cases read

def Brings (p : String → Prop) (node : Node) : Prop :=
  ∀ pairs, merged? node = some pairs → ∀ pair ∈ pairs, Spells p pair.2

theorem mergedAll?_spells {items : List Node} (brings : ∀ item ∈ items, Brings p item)
    {pairs : List (Value × Value)} (read : mergedAll? items = some pairs) :
    ∀ pair ∈ pairs, Spells p pair.2 := by
  induction items generalizing pairs with
  | nil =>
    rw [mergedAll?] at read
    obtain rfl := Option.some.inj read
    exact List.forall_mem_nil _
  | cons item rest ih =>
    obtain ⟨here, later⟩ := List.forall_mem_cons.mp brings
    cases item with
    | mapping tag entries =>
      rw [mergedAll?] at read
      obtain ⟨first, found, read⟩ := Option.bind_eq_some_iff.mp read
      obtain ⟨others, rest_found, same⟩ := Option.bind_eq_some_iff.mp read
      obtain rfl := Option.some.inj same
      have whole : merged? (.mapping tag entries) = some first.all := by rw [merged?, found]; rfl
      exact List.forall_mem_append.mpr ⟨ih later rest_found, here _ whole⟩
    | _ => simp [mergedAll?] at read

theorem entries?_spells {entries : List (Node × Node)} (brings : ∀ e ∈ entries, Brings p e.2)
    (all : ∀ e ∈ entries, Holds p e.2) {read : Entries} (found : entries? entries = some read) :
    ∀ pair ∈ read.all, Spells p pair.2 := by
  induction entries generalizing read with
  | nil =>
    rw [entries?] at found
    obtain rfl := Option.some.inj found
    exact List.forall_mem_nil _
  | cons entry rest ih =>
    obtain ⟨key, item⟩ := entry
    obtain ⟨item_brings, rest_brings⟩ := List.forall_mem_cons.mp brings
    obtain ⟨item_holds, rest_holds⟩ := List.forall_mem_cons.mp all
    rw [entries?] at found
    split at found
    · obtain ⟨brought, merge, found⟩ := Option.bind_eq_some_iff.mp found
      obtain ⟨others, rest_found, same⟩ := Option.bind_eq_some_iff.mp found
      obtain rfl := Option.some.inj same
      rw [Entries.all, List.append_assoc]
      exact List.forall_mem_append.mpr
        ⟨item_brings _ merge, ih rest_brings rest_holds rest_found⟩
    · obtain ⟨name, -, found⟩ := Option.bind_eq_some_iff.mp found
      obtain ⟨v, item_read, found⟩ := Option.bind_eq_some_iff.mp found
      obtain ⟨others, rest_found, same⟩ := Option.bind_eq_some_iff.mp found
      obtain rfl := Option.some.inj same
      have later := List.forall_mem_append.mp (ih rest_brings rest_holds rest_found)
      exact List.forall_mem_append.mpr
        ⟨later.1, List.forall_mem_cons.mpr ⟨item_holds.spells item_read, later.2⟩⟩

theorem Holds.brings {node : Node} (h : Holds p node) : Brings p node := by
  induction h with
  | scalar _ =>
    intro pairs read
    rw [merged?] at read
    cases read
  | sequence _ ih =>
    intro pairs read
    rw [merged?] at read
    exact mergedAll?_spells ih read
  | mapping _ holds _ ih =>
    intro pairs read
    rw [merged?] at read
    obtain ⟨entries, found, rfl⟩ := Option.map_eq_some_iff.mp read
    exact entries?_spells ih holds found

theorem Holds.lookup {node : Node} {entries : List (Value × Value)} {key : String} {v : Value}
    (h : Holds p node) (read : value? node = some (.mapping entries))
    (found : Value.lookup entries key = some v) : Spells p v := by
  cases h with
  | @scalar tag text _ =>
    rw [value?] at read
    cases tag <;> simp [Tag.value?] at read
  | sequence _ =>
    rw [value?] at read
    split at read
    · obtain ⟨items, -, same⟩ := Option.map_eq_some_iff.mp read
      cases same
    · cases read
  | @mapping tag inner keys items =>
    rw [value?] at read
    split at read
    · obtain ⟨pairs, all, same⟩ := Option.map_eq_some_iff.mp read
      obtain rfl := Value.mapping.inj same
      obtain ⟨⟨name, v⟩, entry, rfl⟩ := Option.map_eq_some_iff.mp found
      have mem := List.mem_of_find?_eq_some entry
      obtain ⟨pair, given, same⟩ := Table.value_mem_of_mem_ofListBy mem
      exact same ▸ entries?_spells (fun e mem => (items e mem).brings) items all pair given
    · cases read

end FieldPlan.Yaml.Node
