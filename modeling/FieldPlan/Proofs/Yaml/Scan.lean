import FieldPlan.Proofs.Yaml.PlainText
import FieldPlan.Proofs.Yaml.Properties

/-! What a step of the reading of tokens leaves as it is. -/
namespace FieldPlan.Yaml.Scan
variable {fresh : String → Prop} {s s' t u : Scan} {c d : Cursor} {n : Nat}

/-- From `s` to `t` only scalars with a text that is `fresh` come in. -/
structure Reads (fresh : String → Prop) (s t : Scan) : Prop where
  leads : s.cursor.Leads t.cursor
  scalars : ∀ text isPlain, Token.scalar text isPlain ∈ t.tokens →
    Token.scalar text isPlain ∈ s.tokens ∨ fresh text

namespace Reads

theorem refl (s : Scan) : Reads fresh s s := ⟨Cursor.Leads.refl _, fun _ _ => .inl⟩

theorem trans (h : Reads fresh s t) (h' : Reads fresh t u) : Reads fresh s u := by
  refine ⟨h.leads.trans h'.leads, ?_⟩
  intro text isPlain mem
  obtain mem | new := h'.scalars text isPlain mem
  · exact h.scalars text isPlain mem
  · exact .inr new

theorem of_tokens (same : t.tokens = s.tokens) (leads : s.cursor.Leads t.cursor) :
    Reads fresh s t :=
  ⟨leads, fun _ _ mem => .inl (same ▸ mem)⟩

theorem all (h : Reads fresh s t)
    (before : ∀ text isPlain, Token.scalar text isPlain ∈ s.tokens → fresh text) :
    ∀ text isPlain, Token.scalar text isPlain ∈ t.tokens → fresh text :=
  fun text isPlain mem => (h.scalars text isPlain mem).elim (before text isPlain) id

theorem push {token : Token} (allowed : ∀ text isPlain, token = .scalar text isPlain → fresh text)
    (tokens : t.tokens = s.tokens.push token) (leads : s.cursor.Leads t.cursor) :
    Reads fresh s t := by
  refine ⟨leads, ?_⟩
  intro text isPlain mem
  rw [tokens, Array.mem_push] at mem
  obtain mem | same := mem
  · exact .inl mem
  · exact .inr (allowed text isPlain same.symm)

end Reads

/-- An outer mapping at the first column has not been closed. -/
def Rooted (indents : List Int) : Prop :=
  ∃ inner outer, indents = inner ++ 0 :: outer ∧ ∀ column ∈ inner, 0 ≤ column

/-- A step that opens no flow collection and does not close the outer mapping. -/
structure Keeps (fresh : String → Prop) (s t : Scan) : Prop extends Reads fresh s t where
  block : s.flow = 0 → t.flow = 0
  rooted : Rooted (s.indent :: s.outer) → Rooted (t.indent :: t.outer)

namespace Keeps

theorem refl (s : Scan) : Keeps fresh s s := ⟨.refl s, id, id⟩

theorem trans (h : Keeps fresh s t) (h' : Keeps fresh t u) : Keeps fresh s u :=
  ⟨h.toReads.trans h'.toReads, fun block => h'.block (h.block block),
    fun rooted => h'.rooted (h.rooted rooted)⟩

theorem of_reads (h : Reads fresh s t) (flow : t.flow = s.flow) (indent : t.indent = s.indent)
    (outer : t.outer = s.outer) : Keeps fresh s t :=
  ⟨h, fun block => flow.trans block, fun rooted => by rwa [indent, outer]⟩

end Keeps

/-! ### Blocks -/

theorem Rooted.inside {indent : Int} {outer : List Int} (h : Rooted (indent :: outer)) :
    0 ≤ indent := by
  obtain ⟨inner, others, shape, all⟩ := h
  cases inner with
  | nil => exact Int.le_of_eq (List.cons.inj shape).1.symm
  | cons first inner => exact (List.cons.inj shape).1 ▸ all first List.mem_cons_self

theorem Rooted.cons {column : Int} {indents : List Int} (inside : 0 ≤ column)
    (h : Rooted indents) : Rooted (column :: indents) := by
  obtain ⟨inner, outer, rfl, all⟩ := h
  exact ⟨column :: inner, outer, rfl, List.forall_mem_cons.mpr ⟨inside, all⟩⟩

theorem unwindFrom_tokens {column indent : Int} {outer : List Int} {tokens : Array Token}
    {token : Token} (mem : token ∈ (unwindFrom column indent outer tokens).2.2) :
    token ∈ tokens ∨ token = .blockEnd := by
  induction outer generalizing indent tokens with
  | nil => exact .inl mem
  | cons previous outer ih =>
    rw [unwindFrom] at mem
    split at mem
    · obtain mem | same := ih mem
      · exact Array.mem_push.mp mem
      · exact .inr same
    · exact .inl mem

theorem unwindFrom_rooted {column indent : Int} {outer : List Int} {tokens : Array Token}
    (inside : 0 ≤ column) (h : Rooted (indent :: outer)) :
    Rooted ((unwindFrom column indent outer tokens).1 ::
      (unwindFrom column indent outer tokens).2.1) := by
  induction outer generalizing indent tokens with
  | nil => exact h
  | cons previous outer ih =>
    rw [unwindFrom]
    split
    · next further =>
      apply ih
      obtain ⟨inner, rest, shape, all⟩ := h
      cases inner with
      | nil =>
        obtain ⟨rfl, -⟩ := List.cons.inj shape
        omega
      | cons first inner =>
        exact ⟨inner, rest, (List.cons.inj shape).2, (List.forall_mem_cons.mp all).2⟩
    · exact h

theorem unwind_reads (s : Scan) (column : Int) : Reads fresh s (s.unwind column) := by
  unfold unwind
  split
  · exact .refl s
  · refine ⟨Cursor.Leads.refl _, ?_⟩
    intro text isPlain mem
    obtain mem | same := unwindFrom_tokens mem
    · exact .inl mem
    · cases same

theorem unwind_keeps (s : Scan) {column : Int} (inside : 0 ≤ column) :
    Keeps fresh s (s.unwind column) := by
  refine ⟨unwind_reads s column, ?_, ?_⟩
  · intro block
    unfold unwind
    split <;> exact block
  · intro rooted
    unfold unwind
    split
    · exact rooted
    · exact unwindFrom_rooted inside rooted

theorem mem_insert {tokens : Array Token} {place : Nat} {t token : Token}
    (mem : token ∈ tokens.insertIdxIfInBounds place t) : token ∈ tokens ∨ token = t := by
  unfold Array.insertIdxIfInBounds at mem
  split at mem
  · exact (Array.mem_insertIdx.mp mem).symm
  · exact .inl mem

theorem openBlock_keeps (s : Scan) {column : Int} (inside : 0 ≤ column) (place : Nat) {t : Token}
    (no_text : NoText t) : Keeps fresh s (s.openBlock column place t) := by
  unfold openBlock
  split
  · refine ⟨⟨Cursor.Leads.refl _, ?_⟩, id, fun rooted => rooted.cons inside⟩
    intro text isPlain mem
    obtain mem | same := mem_insert mem
    · exact .inl mem
    · exact absurd same.symm (no_text text isPlain)
  · exact .refl s

theorem openHere_keeps {t : Token} (no_text : NoText t) (h : s.openHere t = some s') :
    Keeps fresh s s' := by
  unfold openHere at h
  split at h
  · exact Option.some.inj h ▸ .refl s
  · split at h
    · exact Option.some.inj h ▸ openBlock_keeps s (Int.natCast_nonneg _) _ no_text
    · cases h

/-! ### Keys -/

theorem keys_keeps (s : Scan) (keys : List PossibleKey) : Keeps fresh s { s with keys := keys } :=
  .of_reads (.of_tokens rfl (Cursor.Leads.refl _)) rfl rfl rfl

theorem dropStale_keeps (h : s.dropStale = some s') : Keeps fresh s s' := by
  unfold dropStale at h
  dsimp only at h
  split at h
  · cases h
  · exact Option.some.inj h ▸ keys_keeps s _

theorem dropKey_eq (h : s.dropKey = some s') : ∃ keys, s' = { s with keys := keys } := by
  unfold dropKey at h
  split at h
  · cases h
  · exact ⟨_, (Option.some.inj h).symm⟩

theorem saveKey_eq (h : s.saveKey = some s') : ∃ keys, s' = { s with keys := keys } := by
  unfold saveKey at h
  split at h
  · simp only [Option.bind_eq_bind, Option.bind_eq_some_iff] at h
    obtain ⟨u, dropped, rest⟩ := h
    obtain ⟨keys, rfl⟩ := dropKey_eq dropped
    exact ⟨_, (Option.some.inj rest).symm⟩
  · exact ⟨s.keys, (Option.some.inj h).symm⟩

theorem allowKey_keeps (s : Scan) (allowed : Bool) : Keeps fresh s (s.allowKey allowed) :=
  .of_reads (.of_tokens rfl (Cursor.Leads.refl _)) rfl rfl rfl

theorem take_keeps (s : Scan) (n : Nat) {t : Token} (no_text : NoText t) :
    Keeps fresh s (s.take n t) :=
  .of_reads (.push no_text.fresh rfl (Cursor.Leads.skip n _)) rfl rfl rfl

theorem toNext_keeps (n : Nat) (s : Scan) : Keeps fresh s (toNext n s) := by
  induction n generalizing s with
  | zero => exact .refl s
  | succ n ih =>
    have blanks : s.cursor.Leads s.cursor.skipSpaces.skipComment :=
      (Cursor.skipSpaces_leads _).trans (Cursor.skipComment_leads _)
    rw [toNext]
    split
    · next broken =>
      have taken := blanks.trans (Cursor.lineBreak?_leads broken)
      refine Keeps.trans ?_ (ih _)
      exact .of_reads (.of_tokens rfl taken) rfl rfl rfl
    · exact .of_reads (.of_tokens rfl blanks) rfl rfl rfl

/-! ### Tokens -/

theorem keyable_keeps {read : Cursor → Option (Token × Cursor)}
    (reads : ∀ t d, read s.cursor = some (t, d) →
      s.cursor.Leads d ∧ ∀ text isPlain, t = .scalar text isPlain → fresh text)
    (h : s.keyable read = some s') : Keeps fresh s s' := by
  unfold keyable at h
  simp only [Option.bind_eq_bind, Option.bind_eq_some_iff, Prod.exists] at h
  obtain ⟨u, saved, t, d, found, rest⟩ := h
  obtain ⟨keys, rfl⟩ := saveKey_eq saved
  obtain ⟨leads, allowed⟩ := reads t d found
  exact Option.some.inj rest ▸
    (keys_keeps s keys).trans (.of_reads (.push allowed rfl leads) rfl rfl rfl)

theorem flowEnd_keeps {t : Token} (no_text : NoText t) (h : s.flowEnd t = some s') :
    Keeps fresh s s' := by
  unfold flowEnd at h
  simp only [Option.bind_eq_bind, Option.bind_eq_some_iff] at h
  obtain ⟨u, dropped, rest⟩ := h
  obtain ⟨keys, rfl⟩ := dropKey_eq dropped
  have taken : Keeps fresh s ((({ s with keys := keys } : Scan).take 1 t).allowKey false) :=
    (keys_keeps s keys).trans ((take_keeps _ 1 no_text).trans (allowKey_keeps _ _))
  refine Option.some.inj rest ▸ taken.trans ⟨.of_tokens rfl (Cursor.Leads.refl _), ?_, id⟩
  intro block
  have none_open : s.flow = 0 := block
  show s.flow - 1 = 0
  rw [none_open]

theorem opened_keeps {t token : Token} (no_text : NoText t) (no_text' : NoText token)
    {allowed : Scan → Bool} (h : (do
      let s ← s.openHere t
      return ((← s.dropKey).allowKey (allowed s)).take 1 token) = some s') : Keeps fresh s s' := by
  simp only [Option.bind_eq_bind, Option.bind_eq_some_iff] at h
  obtain ⟨u, opened, v, dropped, rest⟩ := h
  obtain ⟨keys, rfl⟩ := dropKey_eq dropped
  exact Option.some.inj rest ▸ (openHere_keeps no_text opened).trans
    ((keys_keeps u keys).trans ((allowKey_keeps _ _).trans (take_keeps _ 1 no_text')))

theorem blockEntry_keeps (h : s.blockEntry = some s') : Keeps fresh s s' :=
  opened_keeps (by nofun) (by nofun) h

theorem key_keeps (h : s.key = some s') : Keeps fresh s s' :=
  opened_keeps (by nofun) (by nofun) h

theorem value_keeps (h : s.value = some s') : Keeps fresh s s' := by
  unfold value at h
  split at h
  · next k _ =>
    have marked : Keeps fresh s { s with
        keys := s.keys.filter (·.level != s.flow)
        tokens := s.tokens.insertIdxIfInBounds k.place .key } := by
      refine .of_reads ⟨Cursor.Leads.refl _, ?_⟩ rfl rfl rfl
      intro text isPlain mem
      obtain mem | same := mem_insert mem
      · exact .inl mem
      · cases same
    dsimp only at h
    generalize ({ s with
        keys := s.keys.filter (·.level != s.flow)
        tokens := s.tokens.insertIdxIfInBounds k.place .key } : Scan) = u at *
    have opened : Keeps fresh u (if u.inFlow = true then u
        else u.openBlock k.column k.place .blockMapping) := by
      split
      · exact .refl u
      · exact openBlock_keeps u (Int.natCast_nonneg _) _ nofun
    exact Option.some.inj h ▸
      (marked.trans opened).trans ((allowKey_keeps _ _).trans (take_keeps _ 1 (t := .value) nofun))
  · exact opened_keeps (by nofun) (by nofun) h

end FieldPlan.Yaml.Scan
