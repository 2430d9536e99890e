import FieldPlan.Proofs.Project.Config
import FieldPlan.Proofs.Yaml.Rules
import FieldPlan.Proofs.Yaml.Unread

/-! Whether a new project's configuration names the catalog that it was made for. The name is
put into the text as it is. -/
namespace FieldPlan.Config
open Yaml

def initial (catalog : String) : Config := ⟨catalog, defaultOutput, .camelCase, []⟩

def comment : String := " rpcshape project configuration"

def laterEntries : List (String × String) :=
  [("output", defaultOutput), ("field-formatter", Formatter.camelCase.label)]

theorem initialText_eq (catalog : String) :
    initialText catalog = entriesText comment (("catalog", catalog) :: laterEntries) := by
  have head : "# rpcshape project configuration\ncatalog: ".toList =
      '#' :: comment.toList ++ '\n' :: ("catalog".toList ++ [':', ' ']) := by decide
  have middle : "\noutput: ".toList = '\n' :: ("output".toList ++ [':', ' ']) := by decide
  have tail : "\nfield-formatter: ".toList =
      '\n' :: ("field-formatter".toList ++ [':', ' ']) := by decide
  have last : "\n".toList = ['\n'] := by decide
  apply String.toList_injective
  unfold initialText laterEntries
  rw [String.toList_append, String.toList_append, String.toList_append, String.toList_append,
    String.toList_append, String.toList_append, head, middle, tail, last, toList_entriesText]
  simp only [List.flatMap_cons, List.flatMap_nil, Scan.entryText, List.append_assoc,
    List.cons_append, List.nil_append, List.append_nil]

theorem isComment_comment : IsComment comment := by
  have all : comment.toList.all (fun ch => isAllowed ch && !isBreak ch) = true := by decide
  simpa only [IsComment, List.all_eq_true, Bool.and_eq_true, Bool.not_eq_true'] using all

theorem keyedTexts_later : KeyedTexts "catalog" laterEntries where
  word := by decide
  key := by decide
  others := by
    intro e mem
    simp only [laterEntries, List.mem_cons, List.not_mem_nil, or_false] at mem
    obtain rfl | rfl := mem
    · exact ⟨⟨by decide, by decide⟩, by decide⟩
    · exact ⟨⟨by decide, by decide⟩, by decide⟩
  distinct := by decide

/-! ### A reader that keeps to the rules -/

variable {load : Load} {catalog : String} {c : Config}

theorem ofDocument_keyed (v : Value) :
    ofDocument (keyed "catalog" v laterEntries) = (textOf "catalog" v).map initial := by
  have entries : keyed "catalog" v laterEntries = .mapping [(.str "catalog", v),
    (.str "output", .str defaultOutput),
    (.str "field-formatter", .str Formatter.camelCase.label)] := rfl
  have known : checkKeys [(.str "catalog", v), (.str "output", .str defaultOutput),
      (.str "field-formatter", .str Formatter.camelCase.label)] = .ok () := by
    have all : isKnown (.str "catalog") = true ∧ isKnown (.str "output") = true ∧
      isKnown (.str "field-formatter") = true := by decide
    simp [checkKeys, unknownKeys, all]
  have required : requiredText [(.str "catalog", v), (.str "output", .str defaultOutput),
      (.str "field-formatter", .str Formatter.camelCase.label)] "catalog" =
    textOf "catalog" v := rfl
  have output : optionalText [(.str "catalog", v), (.str "output", .str defaultOutput),
      (.str "field-formatter", .str Formatter.camelCase.label)] "output" defaultOutput =
    .ok defaultOutput := rfl
  have formatter : formatterOf [(.str "catalog", v), (.str "output", .str defaultOutput),
      (.str "field-formatter", .str Formatter.camelCase.label)] = .ok .camelCase := rfl
  have resources : resourcesOf [(.str "catalog", v), (.str "output", .str defaultOutput),
      (.str "field-formatter", .str Formatter.camelCase.label)] = .ok [] := rfl
  rw [entries, ofDocument, known, required, output, formatter, resources]
  cases textOf "catalog" v <;> rfl

theorem ofDocument_keyed_iff {v : Value} :
    ofDocument (keyed "catalog" v laterEntries) = .ok c ↔
      ∃ text, (v = .str text ∧ text ≠ "") ∧ initial text = c := by
  simp only [ofDocument_keyed, ← textOf_eq_ok_iff "catalog"]
  cases textOf "catalog" v <;> simp [Except.map]

/-- A name that stands on its line as one plain scalar comes back unless it is taken for something
else than a text. -/
theorem ofText_of_plain (reads : load.ReadsPlain) (plain : IsPlainLine catalog.toList) :
    ofText load (initialText catalog) = .ok c ↔
      Tag.ofPlain catalog = .str ∧ initial catalog = c := by
  have some_name : catalog ≠ "" := by
    rintro rfl
    obtain ⟨first, more, nothing, -⟩ := plain.begins
    cases nothing
  rw [ofText_eq_ok_iff, initialText_eq]
  by_cases is_text : Tag.ofPlain catalog = .str
  · simp [reads.text isComment_comment keyedTexts_later plain is_text, ofDocument_keyed_iff,
      is_text, some_name]
  · refine iff_of_false ?_ fun h => is_text h.1
    rintro ⟨document, read, accepted⟩
    obtain ⟨v, no_text, rfl⟩ := reads.other isComment_comment keyedTexts_later plain is_text read
    obtain ⟨text, ⟨rfl, -⟩, -⟩ := ofDocument_keyed_iff.mp accepted
    cases no_text

/-- A new project's configuration has the catalog that it was made for just if the name is one
plain scalar and a text. A comment would be cut off, and so would blanks. -/
theorem ofText_initialText_iff (reads : load.ReadsPlain)
    (unmarked : Scan.IsUnmarked catalog.toList) :
    ofText load (initialText catalog) = .ok (initial catalog) ↔
      IsPlainLine catalog.toList ∧ Tag.ofPlain catalog = .str := by
  constructor
  · intro read
    obtain nothing | colon | ⟨value, writes⟩ := unmarked.cases
    · obtain ⟨document, loaded, accepted⟩ := ofText_eq_ok_iff.mp read
      rw [initialText_eq, reads.nothing isComment_comment keyedTexts_later nothing] at loaded
      obtain rfl := Except.ok.inj loaded
      obtain ⟨text, ⟨no_text, -⟩, -⟩ := ofDocument_keyed_iff.mp accepted
      cases no_text
    · obtain ⟨document, loaded, -⟩ := ofText_eq_ok_iff.mp read
      rw [initialText_eq, reads.colon isComment_comment keyedTexts_later colon] at loaded
      cases loaded
    -- What comes back is the scalar without what is around it, so nothing can be around it.
    · have written : Scan.Writes catalog.toList (String.ofList value).toList := by
        rwa [String.toList_ofList]
      have same : ofText load (initialText catalog) =
          ofText load (initialText (String.ofList value)) := by
        rw [initialText_eq, initialText_eq, ofText, ofText,
          reads.around isComment_comment keyedTexts_later written]
      rw [same, ofText_of_plain reads written.1] at read
      obtain ⟨is_text, back⟩ := read
      obtain rfl : String.ofList value = catalog := congrArg Config.catalog back
      exact ⟨written.1, is_text⟩
  · rintro ⟨plain, is_text⟩
    exact (ofText_of_plain reads plain).mpr ⟨is_text, rfl⟩

theorem number_sign_cuts :
    ofText Yaml.load (initialText "resources.yaml") = .ok (initial "resources.yaml") ∧
      ofText Yaml.load (initialText "plans #2.yaml") ≠ .ok (initial "plans #2.yaml") := by
  have unmarked : Scan.IsUnmarked "plans #2.yaml".toList :=
    ⟨by decide, [], "plans #2.yaml".toList, rfl, nofun, .inr (.inr (by decide))⟩
  constructor
  · exact (ofText_initialText_iff load_readsPlain (.of_plain (by decide))).mpr (by decide)
  · intro read
    have plain := ((ofText_initialText_iff load_readsPlain unmarked).mp read).1
    exact absurd plain (by decide)

/-! ### The reader of this library -/

theorem plainTail_later : PlainTail (laterEntries.flatMap Scan.entryText) where
  small := beginsSmall_of_head (by decide)
  few := by decide
  no_mark := by
    have all : ['%', '[', '\x7b', '"', '\'', '|', '>'].all (fun k =>
        !(laterEntries.flatMap Scan.entryText).contains k) = true := by decide
    intro k mem inside
    have absent := List.all_eq_true.mp all k mem
    rw [List.contains_iff_mem.mpr inside] at absent
    cases absent
  parts := by
    have all : (laterEntries.flatMap Scan.entryText).tails.all endsWell = true := by decide
    intro rest below
    exact parts_of_endsWell (List.all_eq_true.mp all rest ((List.mem_tails rest _).mpr below))

/-- The catalog of a configuration is the text of one of its scalars. -/
theorem catalog_scanned {text : String} (read : ofText Yaml.load text = .ok c) :
    c.catalog ≠ "" ∧ ∃ tokens, tokens? text = some tokens ∧
      ∃ isPlain, Token.scalar c.catalog isPlain ∈ tokens := by
  obtain ⟨entries, parsed, valid, described⟩ := ofText_describes_iff.mp read
  obtain ⟨some_text, -⟩ := described.text_ne valid
  obtain ⟨root, tree, value⟩ := Yaml.load_eq_ok_iff.mp parsed
  obtain ⟨tokens, scanned, -⟩ := Option.bind_eq_some_iff.mp tree
  have holds : root.Holds fun s => s = "" ∨ ∃ isPlain, Token.scalar s isPlain ∈ tokens :=
    Node.parse?_holds scanned tree (.inl rfl) fun s isPlain mem => .inr ⟨isPlain, mem⟩
  exact ⟨some_text, tokens, scanned,
    (holds.lookup value described.catalog _ rfl).resolve_left some_text⟩

theorem isPlainLine_of_ofText
    (read : ofText Yaml.load (initialText catalog) = .ok (initial catalog)) :
    IsPlainLine catalog.toList := by
  by_contra not_plain
  obtain ⟨some_text, tokens, scanned, isPlain, mem⟩ := catalog_scanned read
  have plain_word : IsPlainLine "catalog".toList := by decide
  have some_name : catalog.toList ≠ [] := fun none => some_text (String.toList_eq_nil_iff.mp none)
  refine tokens?_unread (fun ch mem => (isComment_comment ch mem).2) keyedTexts_later.word ?_
    plainTail_later some_name not_plain ?_ scanned catalog isPlain mem rfl
  · intro same
    exact not_plain (same ▸ plain_word)
  · rw [initialText_eq, toList_entriesText]
    simp only [List.flatMap_cons, Scan.entryText, List.append_assoc, List.cons_append]
    rfl

/-- Here no other name comes back, whatever it begins with and on however many lines it is. -/
theorem ofText_load_initialText_iff (catalog : String) :
    ofText Yaml.load (initialText catalog) = .ok (initial catalog) ↔
      IsPlainLine catalog.toList ∧ Tag.ofPlain catalog = .str := by
  constructor
  · intro read
    have plain := isPlainLine_of_ofText read
    exact ⟨plain, ((ofText_of_plain load_readsPlain plain).mp read).1⟩
  · rintro ⟨plain, is_text⟩
    exact (ofText_of_plain load_readsPlain plain).mpr ⟨is_text, rfl⟩

end FieldPlan.Config
