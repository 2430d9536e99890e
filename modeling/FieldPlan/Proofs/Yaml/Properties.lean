import FieldPlan.Proofs.Yaml.Cursor
import FieldPlan.Yaml.Token

/-! The readers of directives and properties only go forward. -/
namespace FieldPlan.Yaml.Scan
variable {c d : Cursor} {n : Nat}

theorem number?_leads {m : Nat} (h : number? c = some (m, d)) : c.Leads d := by
  unfold number? at h
  split at h
  · cases h
  · next read =>
    obtain ⟨-, rfl⟩ := Prod.mk.inj (Option.some.inj h)
    have leads := Cursor.span_leads Char.isDigit c
    rwa [read] at leads

theorem name?_leads {name : String} (h : name? c = some (name, d)) : c.Leads d := by
  unfold name? at h
  split at h
  · cases h
  · next read =>
    obtain ⟨-, rfl⟩ := Prod.mk.inj (Option.some.inj h)
    have leads := Cursor.span_leads isNameChar c
    rwa [read] at leads

theorem uriBytes_leads {bytes bytes' : ByteArray} (h : uriBytes n bytes c = some (bytes', d)) :
    c.Leads d := by
  induction n generalizing bytes c with
  | zero =>
    obtain ⟨-, rfl⟩ := Prod.mk.inj (Option.some.inj h)
    exact Cursor.Leads.refl _
  | succ n ih =>
    unfold uriBytes at h
    split at h
    · simp only [Option.bind_eq_bind, Option.bind_eq_some_iff] at h
      obtain ⟨byte, -, rest⟩ := h
      exact (Cursor.Leads.skip 3 c).trans (ih rest)
    · cases h
    · obtain ⟨-, rfl⟩ := Prod.mk.inj (Option.some.inj h)
      exact Cursor.Leads.refl _

theorem uriFrom_leads {done done' : Reversed} (h : uriFrom n done c = some (done', d)) :
    c.Leads d := by
  induction n generalizing done c with
  | zero =>
    obtain ⟨-, rfl⟩ := Prod.mk.inj (Option.some.inj h)
    exact Cursor.Leads.refl _
  | succ n ih =>
    unfold uriFrom at h
    split at h
    · simp only [Option.bind_eq_bind, Option.bind_eq_some_iff, Prod.exists] at h
      obtain ⟨bytes, e, escaped, text, -, rest⟩ := h
      exact (uriBytes_leads escaped).trans (ih rest)
    · split at h
      · exact (Cursor.Leads.advance c).trans (ih h)
      · obtain ⟨-, rfl⟩ := Prod.mk.inj (Option.some.inj h)
        exact Cursor.Leads.refl _
    · obtain ⟨-, rfl⟩ := Prod.mk.inj (Option.some.inj h)
      exact Cursor.Leads.refl _

theorem uri?_leads {uri : String} (h : uri? c = some (uri, d)) : c.Leads d := by
  unfold uri? at h
  simp only [Option.bind_eq_bind, Option.bind_eq_some_iff, Prod.exists] at h
  obtain ⟨done, e, read, rest⟩ := h
  split at rest
  · cases rest
  · simp only [Option.pure_def, Option.some_inj, Prod.mk.injEq] at rest
    obtain ⟨-, rfl⟩ := rest
    exact uriFrom_leads read

theorem handle?_leads {handle : String} (h : handle? c = some (handle, d)) : c.Leads d := by
  unfold handle? at h
  split at h
  · cases h
  · split at h
    · obtain ⟨-, rfl⟩ := Prod.mk.inj (Option.some.inj h)
      exact Cursor.Leads.advance c
    · dsimp only at h
      split at h
      · obtain ⟨-, rfl⟩ := Prod.mk.inj (Option.some.inj h)
        exact (Cursor.Leads.advance c).trans
          ((Cursor.span_leads isNameChar _).trans (Cursor.Leads.advance _))
      · cases h

def NoText (t : Token) : Prop := ∀ text isPlain, t ≠ .scalar text isPlain

theorem NoText.fresh {t : Token} {fresh : String → Prop} (h : NoText t) :
    ∀ text isPlain, t = .scalar text isPlain → fresh text :=
  fun text isPlain same => absurd same (h text isPlain)

theorem directive?_leads {t : Token} (h : directive? c = some (t, d)) :
    c.advance.Leads d ∧ NoText t := by
  unfold directive? at h
  simp only [Option.bind_eq_bind, Option.bind_eq_some_iff, Prod.exists] at h
  obtain ⟨name, e, named, h⟩ := h
  have to_name := name?_leads named
  split at h
  · cases h
  split at h
  · simp only [Option.bind_eq_some_iff, Prod.exists] at h
    obtain ⟨major, f, to_major, h⟩ := h
    split at h
    · cases h
    simp only [Option.bind_eq_some_iff, Prod.exists] at h
    obtain ⟨minor, g, to_minor, h⟩ := h
    split at h
    · simp only [Option.bind_eq_some_iff, Option.pure_def, Option.some_inj, Prod.mk.injEq] at h
      obtain ⟨rest, to_end, rfl, rfl⟩ := h
      have to_number := (Cursor.skipSpaces_leads e).trans (number?_leads to_major)
      have to_second := (Cursor.Leads.advance f).trans (number?_leads to_minor)
      exact ⟨to_name.trans (to_number.trans (to_second.trans (Cursor.restOfLine?_leads to_end))),
        nofun⟩
    · cases h
  split at h
  · simp only [Option.bind_eq_some_iff, Prod.exists] at h
    obtain ⟨handle, f, to_handle, h⟩ := h
    split at h
    · cases h
    simp only [Option.bind_eq_some_iff, Prod.exists] at h
    obtain ⟨meaning, g, to_meaning, h⟩ := h
    split at h
    · simp only [Option.bind_eq_some_iff, Option.pure_def, Option.some_inj, Prod.mk.injEq] at h
      obtain ⟨rest, to_end, rfl, rfl⟩ := h
      have to_first := (Cursor.skipSpaces_leads e).trans (handle?_leads to_handle)
      have to_second := (Cursor.skipSpaces_leads f).trans (uri?_leads to_meaning)
      exact ⟨to_name.trans (to_first.trans (to_second.trans (Cursor.restOfLine?_leads to_end))),
        nofun⟩
    · cases h
  · simp only [Option.bind_eq_some_iff, Option.pure_def, Option.some_inj, Prod.mk.injEq] at h
    obtain ⟨rest, to_end, rfl, rfl⟩ := h
    exact ⟨to_name.trans ((Cursor.span_leads _ e).trans (Cursor.restOfLine?_leads to_end)), nofun⟩

theorem anchorName?_leads {name : String} (h : anchorName? c = some (name, d)) : c.Leads d := by
  unfold anchorName? at h
  simp only [Option.bind_eq_bind, Option.bind_eq_some_iff, Prod.exists] at h
  obtain ⟨name', e, named, h⟩ := h
  split at h
  · simp only [Option.pure_def, Option.some_inj, Prod.mk.injEq] at h
    obtain ⟨-, rfl⟩ := h
    exact (Cursor.Leads.advance c).trans (name?_leads named)
  · cases h

theorem tag?_leads {t : Token} (h : tag? c = some (t, d)) : c.Leads d ∧ NoText t := by
  have ended : ∀ {tag : Token} {e : Cursor}, (if endsPart e.peek then pure (tag, e) else none) =
      some (t, d) → t = tag ∧ d = e := by
    intro tag e h
    split at h
    · simp only [Option.pure_def, Option.some_inj, Prod.mk.injEq] at h
      exact ⟨h.1.symm, h.2.symm⟩
    · cases h
  unfold tag? at h
  simp only [Option.bind_eq_bind] at h
  split at h
  · simp only [Option.bind_some, Option.bind_eq_some_iff, Prod.exists] at h
    obtain ⟨suffix, e, to_suffix, h⟩ := h
    split at h
    · obtain ⟨rfl, rfl⟩ := ended h
      exact ⟨(Cursor.Leads.skip 2 c).trans ((uri?_leads to_suffix).trans (Cursor.Leads.advance e)),
        nofun⟩
    · cases h
  split at h
  · rw [Option.bind_some] at h
    obtain ⟨rfl, rfl⟩ := ended h
    exact ⟨Cursor.Leads.advance c, nofun⟩
  split at h
  · simp only [Option.bind_some, Option.bind_eq_some_iff, Prod.exists] at h
    obtain ⟨handle, e, to_handle, suffix, f, to_suffix, h⟩ := h
    obtain ⟨rfl, rfl⟩ := ended h
    exact ⟨(handle?_leads to_handle).trans (uri?_leads to_suffix), nofun⟩
  · simp only [Option.bind_some, Option.bind_eq_some_iff, Prod.exists] at h
    obtain ⟨suffix, e, to_suffix, h⟩ := h
    obtain ⟨rfl, rfl⟩ := ended h
    exact ⟨(Cursor.Leads.advance c).trans (uri?_leads to_suffix), nofun⟩

end FieldPlan.Yaml.Scan
