/-!
# Tables keyed by text

A table holds at most one entry a key, and a new entry replaces the old one. Two tables are the same when they answer
every look-up alike; the order of the entries is of no account. What each operation does is said by the look-ups that
follow it.

Embedded are the maps that a `StaticTokenRegistry` and a `CachingFetcher` keep.
-/
namespace ColorResolution

/-- Entries with distinct keys. -/
structure Table (α : Type) where
  entries : List (String × α)
  distinct : (entries.map Prod.fst).Nodup

namespace Table

variable {α : Type}

def empty : Table α := ⟨[], List.nodup_nil⟩

instance : Inhabited (Table α) := ⟨empty⟩

def size (t : Table α) : Nat := t.entries.length

def isEmpty (t : Table α) : Bool := t.entries.isEmpty

def keys (t : Table α) : List String := t.entries.map Prod.fst

def get? (t : Table α) (key : String) : Option α := t.entries.lookup key

/-- The entries of all other keys. -/
def others (key : String) (entries : List (String × α)) : List (String × α) :=
  entries.filter fun e => e.1 != key

theorem nodup_others {entries : List (String × α)} (key : String) (h : (entries.map Prod.fst).Nodup) :
    ((others key entries).map Prod.fst).Nodup :=
  h.sublist (List.Sublist.map Prod.fst List.filter_sublist)

theorem not_mem_others (key : String) (entries : List (String × α)) : key ∉ (others key entries).map Prod.fst := by
  simp [others]

def erase (t : Table α) (key : String) : Table α := ⟨others key t.entries, nodup_others key t.distinct⟩

def insert (t : Table α) (key : String) (value : α) : Table α :=
  ⟨(key, value) :: others key t.entries,
    List.nodup_cons.2 ⟨not_mem_others key t.entries, nodup_others key t.distinct⟩⟩

/-- The table of a list of entries, a later entry replacing an earlier one of its key. -/
def ofList (entries : List (String × α)) : Table α := entries.foldl (fun t e => t.insert e.1 e.2) empty

/-- Whether two tables have the same entries. -/
def same [DecidableEq α] (t u : Table α) : Bool :=
  t.size == u.size && t.entries.all fun e => u.get? e.1 == some e.2

theorem lookup_others (key other : String) (entries : List (String × α)) :
    (others key entries).lookup other = if other = key then none else entries.lookup other := by
  induction entries with
  | nil => simp [others]
  | cons e rest ih =>
    obtain ⟨k, v⟩ := e
    unfold others at ih ⊢
    by_cases hk : k = key
    · subst hk
      rw [List.filter_cons_of_neg (by simp), ih]
      by_cases ho : other = k
      · simp [ho]
      · simp [ho, List.lookup_cons, beq_eq_false_iff_ne.2 ho]
    · rw [List.filter_cons_of_pos (by simpa using hk)]
      by_cases ho : other = k
      · subst ho
        simp [hk]
      · simp [List.lookup_cons, beq_eq_false_iff_ne.2 ho, ih]

@[simp] theorem get?_empty (key : String) : (empty : Table α).get? key = none := rfl

theorem get?_erase (t : Table α) (key other : String) :
    (t.erase key).get? other = if other = key then none else t.get? other :=
  lookup_others key other t.entries

theorem get?_insert (t : Table α) (key other : String) (value : α) :
    (t.insert key value).get? other = if other = key then some value else t.get? other := by
  unfold get? insert
  by_cases h : other = key
  · simp [h]
  · simp [List.lookup_cons, h, lookup_others, beq_eq_false_iff_ne.2 h]

end Table

end ColorResolution
