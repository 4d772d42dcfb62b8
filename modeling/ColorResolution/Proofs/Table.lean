import Mathlib.Data.List.Induction
import Mathlib.Data.List.Perm.Subperm
import ColorResolution.Json.Basic
import ColorResolution.Table

/-!
# Tables by their look-ups

The entries, the keys and the size of a table are told by its look-ups. Main statement: two tables are the same exactly
when they answer every look-up alike; and a table made from a list answers with the last entry of a key.
-/
namespace ColorResolution.Table

variable {α : Type} {entries : List (String × α)} {key : String} {value : α}

theorem lookup_eq_some_iff_mem (distinct : (entries.map Prod.fst).Nodup) :
    entries.lookup key = some value ↔ (key, value) ∈ entries := by
  induction entries with
  | nil => simp
  | cons e rest ih =>
    obtain ⟨fresh, distinct⟩ := List.nodup_cons.mp distinct
    by_cases same : key = e.1
    · subst same
      have other : (e.1, value) ∉ rest := fun member => fresh (List.mem_map.mpr ⟨_, member, rfl⟩)
      rw [List.lookup_cons_self, List.mem_cons, or_iff_left other, Option.some_inj, Prod.ext_iff]
      simp [eq_comm]
    · rw [List.lookup_cons, beq_eq_false_iff_ne.mpr same, List.mem_cons, Prod.ext_iff, ih distinct]
      simp [same]

section
variable (t u : Table α)

theorem mem_entries_iff : (key, value) ∈ t.entries ↔ t.get? key = some value :=
  (lookup_eq_some_iff_mem t.distinct).symm

theorem mem_keys_iff (key : String) : key ∈ t.keys ↔ t.get? key ≠ none := by
  rw [keys, List.mem_map, Option.ne_none_iff_exists']
  constructor
  · rintro ⟨e, member, rfl⟩
    exact ⟨e.2, (mem_entries_iff t).mp member⟩
  · rintro ⟨value, held⟩
    exact ⟨(key, value), (mem_entries_iff t).mpr held, rfl⟩

theorem length_keys : t.keys.length = t.size := List.length_map _

/-- The keys of a table are those it is asked for with an answer, each once. -/
theorem size_eq_of_keys {names : List String} (distinct : names.Nodup) (held : ∀ key, key ∈ names ↔ t.get? key ≠ none) :
    t.size = names.length := by
  have same : t.keys.Perm names :=
    (List.perm_ext_iff_of_nodup t.distinct distinct).mpr fun key => (mem_keys_iff t key).trans (held key).symm
  rw [← length_keys, same.length_eq]

/-- Tables are the same when they answer alike. -/
theorem same_iff [DecidableEq α] : t.same u = true ↔ ∀ key, t.get? key = u.get? key := by
  rw [same, Bool.and_eq_true, beq_iff_eq, List.all_eq_true]
  constructor
  · rintro ⟨size, entries⟩ key
    have contained {key : String} {value : α} (held : t.get? key = some value) : u.get? key = some value :=
      beq_iff_eq.mp (entries (key, value) ((mem_entries_iff t).mpr held))
    cases held : t.get? key with
    | some value => exact (contained held).symm
    | none =>
      -- the keys of the one are as many keys of the other, hence all of them
      have within : t.keys ⊆ u.keys := by
        intro other member
        obtain ⟨value, held⟩ := Option.ne_none_iff_exists'.mp ((mem_keys_iff t other).mp member)
        rw [mem_keys_iff, contained held]
        exact Option.some_ne_none value
      have distinct : t.keys.Nodup := t.distinct
      have all : t.keys.Perm u.keys :=
        (distinct.subperm within).perm_of_length_le (Nat.le_of_eq (by rw [length_keys, length_keys, size]))
      by_contra present
      exact (mem_keys_iff t key).mp (all.mem_iff.mpr ((mem_keys_iff u key).mpr (Ne.symm present))) held
  · intro alike
    constructor
    · rw [size_eq_of_keys t u.distinct (fun key => by rw [alike, ← mem_keys_iff, keys]), List.length_map, size]
    · intro e member
      rw [← alike, (mem_entries_iff t).mp member, beq_self_eq_true]

end

/-- A table made from a list answers with the last entry. -/
theorem get?_ofList (entries : List (String × α)) (key : String) :
    (ofList entries).get? key = Json.member? entries key := by
  induction entries using List.reverseRecOn with
  | nil => rfl
  | append_singleton rest e ih =>
    have last : ofList (rest ++ [e]) = (ofList rest).insert e.1 e.2 := by rw [ofList, List.foldl_append]; rfl
    rw [last, get?_insert, ih, Json.member?, Json.member?, List.reverse_append, List.reverse_singleton, List.singleton_append,
      List.lookup_cons]
    by_cases same : key = e.1
    · rw [if_pos same, beq_iff_eq.mpr same]
    · rw [if_neg same, beq_eq_false_iff_ne.mpr same]

end ColorResolution.Table
