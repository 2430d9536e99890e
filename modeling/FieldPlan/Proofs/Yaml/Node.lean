import FieldPlan.Proofs.Yaml.Entry
import FieldPlan.Yaml

/-! The trees of tokens. -/
namespace FieldPlan.Yaml.Node
variable {n : Nat} {rest : List Token} {anchors : List (String × Option Node)}
variable {handles : List (String × String)} {α β : Type}

theorem bind_apply (m : Reader α) (f : α → Reader β) (s : Input) :
    (m >>= f) s = (m s).bind fun r => f r.1 r.2 := rfl

theorem pure_apply (a : α) (s : Input) : (pure a : Reader α) s = some (a, s) := rfl

theorem peek_cons (t : Token) :
    peek ⟨t :: rest, anchors, handles⟩ = some (t, ⟨t :: rest, anchors, handles⟩) := rfl

theorem advance_cons (t : Token) :
    advance ⟨t :: rest, anchors, handles⟩ = some ((), ⟨rest, anchors, handles⟩) := rfl

theorem took_self (t : Token) :
    took t ⟨t :: rest, anchors, handles⟩ = some (true, ⟨rest, anchors, handles⟩) := by
  unfold took
  rw [bind_apply, peek_cons, Option.bind_some, if_pos (beq_self_eq_true t), bind_apply,
    advance_cons]
  rfl

/-! ### Entries -/

def plain (text : String) : Node := .scalar (Tag.ofPlain text) text

theorem blockEntries_plain (n : Nat) (entries : List (String × String)) (rest : List Token)
    (anchors : List (String × Option Node)) (handles : List (String × String)) :
    blockEntries (n + entries.length + 5)
        ⟨entries.flatMap Scan.entryTokens ++ .blockEnd :: rest, anchors, handles⟩ =
      some (entries.map fun e => (plain e.1, plain e.2), ⟨rest, anchors, handles⟩) := by
  induction entries with
  | nil => rfl
  | cons e entries ih =>
    have key : ∀ rest, nodeUnless (n + entries.length + 5) .value [.key, .value, .blockEnd]
        ⟨.scalar e.1 true :: rest, anchors, handles⟩ =
          some (plain e.1, ⟨rest, anchors, handles⟩) := fun rest => rfl
    have value : ∀ rest, valueUnless (n + entries.length + 5) .value [.key, .value, .blockEnd]
        ⟨.value :: .scalar e.2 true :: rest, anchors, handles⟩ =
          some (plain e.2, ⟨rest, anchors, handles⟩) := fun rest => rfl
    rw [List.length_cons, ← Nat.add_assoc, Nat.add_right_comm _ 1 5, blockEntries,
      List.flatMap_cons, List.append_assoc, Scan.entryTokens, List.cons_append, bind_apply,
      took_self]
    simp only [Option.bind_some, if_true, List.cons_append, List.nil_append, bind_apply, key,
      value, ih, pure_apply, List.map_cons]

/-- The value of a key, where a plain scalar or nothing comes after the colon. -/
def held (written : Option String) : Node := written.elim nothing plain

def heldTokens (written : Option String) : List Token := written.toList.map (.scalar · true)

theorem blockEntries_cons (n : Nat) (name : String) (written : Option String)
    (entries : List (String × String)) (rest : List Token) (anchors : List (String × Option Node))
    (handles : List (String × String)) :
    blockEntries (n + entries.length + 6) ⟨.key :: .scalar name true :: .value ::
        (heldTokens written ++ (entries.flatMap Scan.entryTokens ++ .blockEnd :: rest)),
        anchors, handles⟩ =
      some ((plain name, held written) :: entries.map fun e => (plain e.1, plain e.2),
        ⟨rest, anchors, handles⟩) := by
  have others := blockEntries_plain n entries rest anchors handles
  have key : ∀ rest, nodeUnless (n + entries.length + 5) .value [.key, .value, .blockEnd]
      ⟨.scalar name true :: rest, anchors, handles⟩ =
        some (plain name, ⟨rest, anchors, handles⟩) := fun rest => rfl
  have value : valueUnless (n + entries.length + 5) .value [.key, .value, .blockEnd]
      ⟨.value :: (heldTokens written ++ (entries.flatMap Scan.entryTokens ++ .blockEnd :: rest)),
        anchors, handles⟩ =
        some (held written,
          ⟨entries.flatMap Scan.entryTokens ++ .blockEnd :: rest, anchors, handles⟩) := by
    cases written with
    | some text => rfl
    | none =>
      cases entries with
      | nil => rfl
      | cons e entries => rfl
  rw [blockEntries, bind_apply, took_self]
  simp only [Option.bind_some, if_true, bind_apply, key, value, others, pure_apply]

theorem document_mapping {pairs : List (Node × Node)} {tokens : List Token}
    (read : blockEntries n ⟨tokens, anchors, handles⟩ =
      some (pairs, ⟨[.streamEnd], anchors, handles⟩)) :
    document (n + 2) ⟨.blockMapping :: tokens, anchors, handles⟩ =
      some (.mapping .map pairs, ⟨[], anchors, handles⟩) := by
  have inner : content (n + 1) .block false none ⟨.blockMapping :: tokens, anchors, handles⟩ =
      some (.mapping .map pairs, ⟨[.streamEnd], anchors, handles⟩) := by
    rw [content, bind_apply, peek_cons]
    simp only [Option.bind_some, bind_apply, advance_cons, read, reduceCtorEq, if_false]
    rfl
  have root : node (n + 2) .block ⟨.blockMapping :: tokens, anchors, handles⟩ =
      some (.mapping .map pairs, ⟨[.streamEnd], anchors, handles⟩) := by
    rw [node, bind_apply, peek_cons]
    show (content (n + 1) .block false none _).bind _ = _
    rw [inner]
    rfl
  rw [document, bind_apply, peek_cons]
  show (node (n + 2) .block _).bind _ = _
  rw [root]
  rfl

/-- A comment with entries below it is one mapping of plain scalars. -/
theorem parse?_entries {comment name content : String} {written : Option String}
    {entries : List (String × String)} (is_comment : IsComment comment)
    (is_word : Scan.IsWord name.toList)
    (reads : Scan.ReadsAs content.toList (heldTokens written))
    (others : ∀ e ∈ entries, Scan.IsEntry e) :
    parse? (entriesText comment ((name, content) :: entries)) =
      some (.mapping .map ((plain name, held written) ::
        entries.map fun e => (plain e.1, plain e.2))) := by
  have tokens := tokens?_entries is_comment is_word reads others
  have four : (entries.flatMap Scan.entryTokens).length = 4 * entries.length := by
    rw [List.length_flatMap]
    show (entries.map fun _ => 4).sum = _
    rw [List.map_const', List.sum_replicate_nat, Nat.mul_comm]
  have read := fun n => blockEntries_cons n name written entries [.streamEnd] [] commonHandles
  generalize shape : heldTokens written ++ (entries.flatMap Scan.entryTokens ++
    [.blockEnd, .streamEnd]) = left at tokens read
  obtain ⟨n, fuel⟩ : ∃ n, 4 * (Token.blockMapping :: .key :: .scalar name true :: .value ::
      left).length + 8 = n + entries.length + 6 + 2 := by
    refine ⟨4 * left.length + 16 - entries.length, ?_⟩
    have long := congrArg List.length shape
    simp only [List.length_append, four] at long
    simp only [List.length_cons]
    omega
  rw [parse?, tokens]
  show ((document _ _).bind fun r => some r.1) = _
  rw [fuel, document_mapping (read n)]
  rfl

end FieldPlan.Yaml.Node
