import AuditTables.Keyed

/-!
# `AuditTables.Proofs.Keyed`: ascending lists are determined by their reads

A list under ascending keys holds each key once, so a read of a key and the
membership of the pair say the same (`mem_iff_get?_eq_some`). Two such lists that
agree on every read are therefore the same list (`eq_of_get?_eq`): a printed
object shows nothing of the order in which its keys were written.

`foldl_put_of_ascending` is the other direction of the same fact. Writing the
pairs of an ascending list one after the other, as a reader of a printed object
does, rebuilds the list.
-/

set_option autoImplicit false

namespace AuditTables.Proofs.Keyed

open AuditTables.Keyed

variable {α : Type}

/-- A key below every key of a list is not in the list. -/
theorem get?_eq_none_of_lt {key : String} {entries : List (String × α)}
    (h : ∀ p ∈ entries, key < p.1) : get? key entries = none := by
  induction entries with
  | nil => rfl
  | cons entry rest ih =>
      have hne : entry.1 ≠ key := fun he =>
        String.lt_irrefl key (he ▸ h entry List.mem_cons_self)
      rw [get?, if_neg hne]
      exact ih fun p hp => h p (List.mem_cons_of_mem _ hp)

/-- In an ascending list, a pair is a member exactly when its key reads as its
value: no second pair can hide behind the first. -/
theorem mem_iff_get?_eq_some {key : String} {value : α} {entries : List (String × α)}
    (h : Ascending entries) : (key, value) ∈ entries ↔ get? key entries = some value := by
  induction entries with
  | nil => simp [get?]
  | cons entry rest ih =>
      obtain ⟨hhead, hrest⟩ := List.pairwise_cons.mp h
      rw [List.mem_cons, ih hrest, get?]
      by_cases hk : entry.1 = key
      · have hnone : get? key rest = none :=
          get?_eq_none_of_lt fun p hp => hk ▸ hhead p hp
        rw [if_pos hk, hnone]
        constructor
        · rintro (he | he)
          · rw [← he]
          · exact absurd he (by simp)
        · intro he
          exact Or.inl (Prod.ext hk.symm (Option.some.inj he).symm)
      · rw [if_neg hk]
        constructor
        · rintro (he | he)
          · exact absurd (congrArg Prod.fst he).symm hk
          · exact he
        · exact Or.inr

/-- A key that reads as something stands in the list, and one that stands in the
list reads as something. -/
theorem get?_isSome_iff_mem_keys (key : String) (entries : List (String × α)) :
    (get? key entries).isSome = true ↔ key ∈ keys entries := by
  induction entries with
  | nil => simp [get?, keys]
  | cons entry rest ih =>
      rw [get?, keys, List.map_cons, List.mem_cons]
      by_cases hk : entry.1 = key
      · simp [hk]
      · rw [if_neg hk, ih]
        simp [keys, Ne.symm hk]

/-- An ascending list holds no pair twice. -/
theorem nodup_of_ascending {entries : List (String × α)} (h : Ascending entries) :
    entries.Nodup := by
  refine List.Pairwise.imp ?_ h
  intro a b hlt he
  exact String.lt_irrefl _ (he ▸ hlt)

/-- Ascending lists that agree on every read are equal. They have the same pairs,
and no two pairs can stand in either order. -/
theorem eq_of_get?_eq {a b : List (String × α)} (ha : Ascending a) (hb : Ascending b)
    (h : ∀ key, get? key a = get? key b) : a = b := by
  have hmem : ∀ p, p ∈ a ↔ p ∈ b := by
    intro p
    show (p.1, p.2) ∈ a ↔ (p.1, p.2) ∈ b
    rw [mem_iff_get?_eq_some ha, mem_iff_get?_eq_some hb, h]
  have hperm : a.Perm b :=
    (List.perm_ext_iff_of_nodup (nodup_of_ascending ha) (nodup_of_ascending hb)).mpr hmem
  exact hperm.eq_of_pairwise
    (fun x y _ _ hxy hyx => absurd (String.lt_trans hxy hyx) (String.lt_irrefl _)) ha hb

/-- A key above every key of a list is written at its end. -/
theorem put_eq_append {key : String} {entries : List (String × α)}
    (h : ∀ p ∈ entries, p.1 < key) (value : α) :
    put key value entries = entries ++ [(key, value)] := by
  induction entries with
  | nil => rfl
  | cons entry rest ih =>
      have hlt : entry.1 < key := h entry List.mem_cons_self
      have hnot : ¬ key < entry.1 := fun hback =>
        String.lt_irrefl _ (String.lt_trans hlt hback)
      have hne : entry.1 ≠ key := fun he => String.lt_irrefl _ (he ▸ hlt)
      rw [put, if_neg hnot, if_neg hne, ih fun p hp => h p (List.mem_cons_of_mem _ hp)]
      rfl

/-- Writing the pairs of an ascending list in order after pairs with lesser keys
puts one list behind the other. -/
theorem foldl_put_of_ascending (before : List (String × α)) {entries : List (String × α)}
    (h : Ascending (before ++ entries)) :
    entries.foldl (fun es p => put p.1 p.2 es) before = before ++ entries := by
  induction entries generalizing before with
  | nil => simp
  | cons entry rest ih =>
      have hbelow : ∀ p ∈ before, p.1 < entry.1 := fun p hp =>
        (List.pairwise_append.mp h).2.2 p hp entry List.mem_cons_self
      rw [List.foldl_cons, put_eq_append hbelow,
        ih _ (by rw [List.append_assoc]; exact h), List.append_assoc]
      rfl

end AuditTables.Proofs.Keyed
