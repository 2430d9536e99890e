import FieldPlan.Descent

/-! Every nested selection weighs less than the level that it is read from, and what the checks
of a field leave of it weighs no more than it does. -/
namespace FieldPlan

/-! ### Weights of the parts of a selection -/

namespace Value

theorem weight_lt_entryWeights {k v : Value} {entries : List (Value × Value)}
    (h : (k, v) ∈ entries) : v.weight < entryWeights entries := by
  induction entries with
  | nil => simp at h
  | cons entry entries ih =>
    obtain ⟨k', v'⟩ := entry
    rcases List.mem_cons.1 h with h | h
    · obtain ⟨rfl, rfl⟩ := Prod.mk.injEq .. ▸ h
      simp only [entryWeights]
      omega
    · have := ih h
      simp only [entryWeights]
      omega

theorem weight_get?_lt {selection v : Value} {key : String} (h : selection.get? key = some v) :
    v.weight < selection.weight := by
  cases selection with
  | mapping entries =>
    simp only [get?, lookup, Option.map_eq_some_iff] at h
    obtain ⟨entry, found, rfl⟩ := h
    have := weight_lt_entryWeights (k := entry.1) (List.mem_of_find?_eq_some found)
    simp only [weight]
    omega
  | _ => simp [get?] at h

end Value

namespace Selection

@[simp] theorem weight_normalize (v : Value) : (normalize v).weight = v.weight := by
  unfold normalize
  split <;> simp [Value.weight, Value.weights]

theorem weight_request_lt {element : Value} {requests : List (Value × Request)}
    (h : requests? element = some requests) {key : Value} {request : Request}
    (member : (key, request) ∈ requests) {v : Value} (nested : request.nested? = some v) :
    v.weight < element.weight := by
  unfold requests? at h
  split at h
  · cases h
    simp only [List.mem_singleton, Prod.mk.injEq] at member
    rw [member.2] at nested
    simp [Request.nested?] at nested
  · next entries =>
    cases h
    obtain ⟨entry, found, same⟩ := List.mem_map.1 member
    obtain ⟨rfl, rfl⟩ := Prod.mk.injEq .. ▸ same
    simp only [Request.nested?, Option.some.injEq] at nested
    subst nested
    have := Value.weight_lt_entryWeights (k := entry.1) found
    simp only [Value.weight]
    omega
  · cases h
    simp only [List.mem_singleton, Prod.mk.injEq] at member
    rw [member.2] at nested
    simp only [Request.nested?, Option.some.injEq] at nested
    subst nested
    simp only [Value.weight, Value.weights]
    omega
  · cases h

end Selection

/-! ### Outcomes -/

theorem Outcome.bind_ok {ε α β : Type} {first : Except ε α} {next : α → Except ε β} {b : β}
    (h : first >>= next = .ok b) : ∃ a, first = .ok a ∧ next a = .ok b := by
  cases first with
  | error e => simp [bind, Except.bind] at h
  | ok a => exact ⟨a, rfl, h⟩

theorem Outcome.map_ok {ε α β : Type} {first : Except ε α} {f : α → β} {b : β}
    (h : first.map f = .ok b) : ∃ a, first = .ok a ∧ f a = b := by
  cases first with
  | error e => simp [Except.map] at h
  | ok a => exact ⟨a, rfl, by simpa [Except.map] using h⟩

theorem Outcome.mem_mapM {α β : Type} {f : α → Outcome β} {xs : List α} {ys : List β}
    (h : xs.mapM f = .ok ys) {y : β} (member : y ∈ ys) : ∃ x ∈ xs, f x = .ok y := by
  induction xs generalizing ys with
  | nil =>
    rw [List.mapM_nil] at h
    cases h
    simp at member
  | cons x xs ih =>
    rw [List.mapM_cons] at h
    obtain ⟨z, first, h⟩ := Outcome.bind_ok h
    obtain ⟨zs, others, h⟩ := Outcome.bind_ok h
    cases h
    rcases List.mem_cons.1 member with rfl | member
    · exact ⟨x, by simp, first⟩
    · obtain ⟨x', found, same⟩ := ih others member
      exact ⟨x', by simp [found], same⟩

/-! ### Entries that are read -/

namespace Selection

theorem mem_elementNames {path : List String} {element : Value}
    {names : List (String × Request)} (h : elementNames path element = .ok names)
    {name : String} {request : Request} (member : (name, request) ∈ names) :
    ∃ requests key, requests? element = some requests ∧ (key, request) ∈ requests := by
  unfold elementNames at h
  split at h
  · simp [malformed, reject] at h
  · next requests found =>
    obtain ⟨⟨key, request'⟩, present, same⟩ := Outcome.mem_mapM h member
    obtain ⟨name', _, same⟩ := Outcome.map_ok same
    obtain ⟨_, rfl⟩ := Prod.mk.injEq .. ▸ same
    exact ⟨requests, key, found, present⟩

theorem mem_enrol {resolve : String → String} {path seen : List String}
    {names : List (String × Request)} {entries : List Entry}
    (h : enrol resolve path seen names = .ok entries) {entry : Entry} (member : entry ∈ entries) :
    (entry.spelled, entry.request) ∈ names := by
  induction names generalizing seen entries with
  | nil =>
    simp only [enrol, Except.ok.injEq] at h
    simp [← h] at member
  | cons first rest ih =>
    obtain ⟨spelled, request⟩ := first
    simp only [enrol] at h
    split at h
    · simp [reject] at h
    · obtain ⟨others, found, rfl⟩ := Outcome.map_ok h
      rcases List.mem_cons.1 member with rfl | member
      · simp
      · exact List.mem_cons_of_mem _ (ih found member)

theorem weight_readFrom_lt {resolve : String → String} {path seen : List String}
    {fields : List Value} {entries : List Entry}
    (h : readFrom resolve path seen fields = .ok entries) {entry : Entry}
    (member : entry ∈ entries) {v : Value} (nested : entry.request.nested? = some v) :
    v.weight < Value.weights fields := by
  induction fields generalizing seen entries with
  | nil =>
    simp only [readFrom, Except.ok.injEq] at h
    simp [← h] at member
  | cons element rest ih =>
    simp only [readFrom] at h
    obtain ⟨names, named, h⟩ := Outcome.bind_ok h
    obtain ⟨enrolled, first, h⟩ := Outcome.bind_ok h
    obtain ⟨others, last, h⟩ := Outcome.bind_ok h
    cases h
    simp only [Value.weights]
    rcases List.mem_append.1 member with member | member
    · obtain ⟨requests, key, found, present⟩ := mem_elementNames named (mem_enrol first member)
      have := weight_request_lt found present nested
      omega
    · have := ih last member
      omega

/-- What an entry asks for is lighter than the level that the entry is read from. -/
theorem weight_read_lt {resolve : String → String} {path : List String} {fields : List Value}
    {entries : List Entry} (h : read resolve path fields = .ok entries) {entry : Entry}
    (member : entry ∈ entries) {v : Value} (nested : entry.request.nested? = some v) :
    v.weight < Value.weights fields :=
  weight_readFrom_lt h member nested

theorem requireSome_eq {kind : String} {path : List String} {field : Option String} {v : Value}
    {fields : List Value} (h : requireSome kind path field v = .ok fields) : v = .list fields := by
  unfold requireSome at h
  split at h
  · simp [requiresFields, reject] at h
  · simpa using h
  · simp [reject] at h

end Selection

/-! ### Checks of fields -/

namespace Descent

theorem weight_calledSelection_le {needed : Bool} {path : List String} {name : String}
    {given selection : Value} (h : calledSelection needed path name given = .ok selection) :
    selection.weight ≤ given.weight := by
  simp only [calledSelection] at h
  split at h
  · split at h
    · simp [requiresFields, reject] at h
    · obtain ⟨fields, found, h⟩ := Outcome.bind_ok h
      cases h
      exact Nat.le_of_eq (by rw [← Selection.requireSome_eq found, Selection.weight_normalize])
  · cases h
    split
    · simp [Value.weight, Value.weights]
    · exact Nat.le_refl _

/-- The fields of an object form weigh no more than the form. -/
theorem weight_formFields_le {nested : Value} (h : Arguments.isArgsForm nested) :
    ((nested.get? Arguments.fieldsKey).getD .null).weight ≤ nested.weight := by
  cases given : nested.get? Arguments.fieldsKey with
  | some v => exact Nat.le_of_lt (Value.weight_get?_lt given)
  | none =>
    cases nested with
    | mapping entries =>
      simp only [Option.getD_none, Value.weight]
      omega
    | _ => simp [Arguments.isArgsForm] at h

theorem weight_withoutForm_le {path : List String} {name : String} {nested given : Value}
    (h : withoutForm path name nested = .ok given) : given.weight ≤ nested.weight := by
  unfold withoutForm at h
  split at h
  · cases h
    exact Nat.le_refl _
  · next fields found =>
    split at h
    · simp [Arguments.invalid, reject] at h
    · cases h
      exact Nat.le_of_lt (Value.weight_get?_lt found)

end Descent
end FieldPlan
