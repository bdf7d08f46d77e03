/-!
# Sorted tables

A finite map kept as a list of keys and values in strictly increasing order of the keys. The list is
determined by the map it stands for, so tables that agree on every key are equal.
-/

namespace FlutterMend

structure SortedTable (κ ν : Type) [LT κ] where
  entries : List (κ × ν)
  sorted : entries.Pairwise fun a b => a.1 < b.1

namespace SortedTable

section Lists

variable {κ ν : Type} [DecidableEq κ]

theorem lookup_cons_eq_ite (k k' : κ) (v : ν) (l : List (κ × ν)) :
    ((k', v) :: l).lookup k = if k = k' then some v else l.lookup k := by
  by_cases h : k = k'
  · simp [h]
  · simp [List.lookup_cons, beq_false_of_ne h, h]

theorem lookup_filter (p : κ → Bool) (k : κ) (l : List (κ × ν)) :
    (l.filter fun e => p e.1).lookup k = if p k then l.lookup k else none := by
  induction l with
  | nil => simp
  | cons e l ih =>
    obtain ⟨k', v⟩ := e
    rw [List.filter_cons, lookup_cons_eq_ite]
    cases hp : p k' with
    | true =>
      rw [if_pos rfl, lookup_cons_eq_ite, ih]
      by_cases hk : k = k' <;> simp_all
    | false =>
      rw [if_neg Bool.false_ne_true, ih]
      by_cases hk : k = k' <;> simp_all

end Lists

section Basic

variable {κ ν : Type} [LT κ]

def empty : SortedTable κ ν := ⟨[], .nil⟩

instance : Inhabited (SortedTable κ ν) := ⟨empty⟩

theorem ext {s t : SortedTable κ ν} (h : s.entries = t.entries) : s = t := by
  cases s; cases t; cases h; rfl

def size (t : SortedTable κ ν) : Nat := t.entries.length

/-- The entries whose key passes a test. -/
def filterKeys (t : SortedTable κ ν) (p : κ → Bool) : SortedTable κ ν :=
  ⟨t.entries.filter fun e => p e.1, t.sorted.filter _⟩

variable [DecidableEq κ]

def get? (t : SortedTable κ ν) (k : κ) : Option ν := t.entries.lookup k

@[simp] theorem get?_empty (k : κ) : (empty : SortedTable κ ν).get? k = none := rfl

@[simp] theorem get?_filterKeys (t : SortedTable κ ν) (p : κ → Bool) (k : κ) :
    (t.filterKeys p).get? k = if p k then t.get? k else none :=
  lookup_filter p k t.entries

end Basic

section Insert

variable {κ ν : Type} [LT κ] [DecidableEq κ] [DecidableLT κ]

/-- Puts a value at its place in a sorted list, instead of an earlier value with the same key. -/
def place (k : κ) (v : ν) : List (κ × ν) → List (κ × ν)
  | [] => [(k, v)]
  | (k', v') :: rest =>
    if k < k' then (k, v) :: (k', v') :: rest
    else if k = k' then (k, v) :: rest
    else (k', v') :: place k v rest

theorem mem_place {k : κ} {v : ν} {e : κ × ν} {l : List (κ × ν)} (h : e ∈ place k v l) :
    e = (k, v) ∨ e ∈ l := by
  fun_induction place k v l <;> grind

theorem lookup_place (k : κ) (v : ν) (k₁ : κ) (l : List (κ × ν)) :
    (place k v l).lookup k₁ = if k₁ = k then some v else l.lookup k₁ := by
  fun_induction place k v l <;> grind [lookup_cons_eq_ite]

variable [Trans (α := κ) (· < ·) (· < ·) (· < ·)] [Std.Trichotomous (α := κ) (· < ·)]

theorem sorted_place (k : κ) (v : ν) {l : List (κ × ν)} (h : l.Pairwise fun a b => a.1 < b.1) :
    (place k v l).Pairwise fun a b => a.1 < b.1 := by
  fun_induction place k v l with
  | case1 => simp
  | case2 k' v' rest lt =>
    refine List.pairwise_cons.2 ⟨fun e he => ?_, h⟩
    rcases List.mem_cons.1 he with rfl | he
    · exact lt
    · exact Trans.trans lt ((List.pairwise_cons.1 h).1 e he)
  | case3 k' v' rest => exact List.pairwise_cons.2 (List.pairwise_cons.1 h)
  | case4 k' v' rest notLt ne ih =>
    obtain ⟨first, rest⟩ := List.pairwise_cons.1 h
    have gt : k' < k := Decidable.byContradiction fun notGt =>
      ne (Std.Trichotomous.trichotomous k k' notLt notGt)
    refine List.pairwise_cons.2 ⟨fun e he => ?_, ih rest⟩
    rcases mem_place he with rfl | he
    · exact gt
    · exact first e he

/-- Binds a key, instead of an earlier binding of it. -/
def insert (t : SortedTable κ ν) (k : κ) (v : ν) : SortedTable κ ν :=
  ⟨place k v t.entries, sorted_place k v t.sorted⟩

@[simp] theorem get?_insert (t : SortedTable κ ν) (k : κ) (v : ν) (k₁ : κ) :
    (t.insert k v).get? k₁ = if k₁ = k then some v else t.get? k₁ :=
  lookup_place k v k₁ t.entries

end Insert

section Membership

variable {κ ν : Type} [LT κ] [DecidableEq κ] [Std.Irrefl (α := κ) (· < ·)]

/-- The list of a table holds just the bindings of its keys. -/
theorem mem_entries_iff {t : SortedTable κ ν} {k : κ} {v : ν} :
    (k, v) ∈ t.entries ↔ t.get? k = some v := by
  obtain ⟨l, sorted⟩ := t
  change (k, v) ∈ l ↔ l.lookup k = some v
  induction l generalizing v with
  | nil => simp
  | cons e l ih =>
    obtain ⟨k', v'⟩ := e
    obtain ⟨first, rest⟩ := List.pairwise_cons.1 sorted
    rw [lookup_cons_eq_ite, List.mem_cons, ih rest]
    by_cases hk : k = k'
    · subst hk
      have absent : l.lookup k = none := by
        refine Option.eq_none_iff_forall_ne_some.2 fun v hv => ?_
        exact Std.Irrefl.irrefl k (first (k, v) ((ih rest).2 hv))
      simp [absent, eq_comm]
    · simp [hk]

end Membership

end SortedTable

end FlutterMend
