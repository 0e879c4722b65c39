import Mathlib.Data.List.AList
import Mathlib.Tactic

/-!
# Tables

A table is an association list with distinct keys. On top of Mathlib's lookup,
insertion and erasure: an entry that is made when it is missing, an update in
place, a pass that rewrites or drops every entry, and the weight of a table, the
sum of a measure over its entries.
-/
namespace Tables

abbrev Table (κ α : Type*) := AList fun _ : κ => α

variable {κ α : Type*} [DecidableEq κ]

/-- The value under `k`, or `v` when there is none. -/
def getOr (k : κ) (v : α) (t : Table κ α) : α := (t.lookup k).getD v

/-- The entry under `k` becomes `v` when there is none. -/
def orInsert (k : κ) (v : α) (t : Table κ α) : Table κ α :=
  if (t.lookup k).isSome then t else t.insert k v

/-- The value under `k`, when there is one, is replaced. -/
def modify (k : κ) (f : α → α) (t : Table κ α) : Table κ α :=
  match t.lookup k with
  | some v => t.insert k (f v)
  | none => t

theorem lookup_insert_eq (k k' : κ) (v : α) (t : Table κ α) :
    (t.insert k v).lookup k' = if k' = k then some v else t.lookup k' := by
  by_cases h : k' = k
  · subst h
    rw [AList.lookup_insert, if_pos rfl]
  · rw [AList.lookup_insert_ne h, if_neg h]

theorem lookup_erase_eq (k k' : κ) (t : Table κ α) :
    (t.erase k).lookup k' = if k' = k then none else t.lookup k' := by
  by_cases h : k' = k
  · subst h
    rw [AList.lookup_erase, if_pos rfl]
  · rw [AList.lookup_erase_ne h, if_neg h]

theorem lookup_orInsert (k k' : κ) (v : α) (t : Table κ α) :
    (orInsert k v t).lookup k' = if k' = k then some (getOr k v t) else t.lookup k' := by
  unfold orInsert getOr
  by_cases h : k' = k
  · subst h
    cases ht : t.lookup k' with
    | none => simp
    | some w => simp [ht]
  · by_cases hs : (t.lookup k).isSome
    · rw [if_pos hs, if_neg h]
    · rw [if_neg hs, if_neg h, AList.lookup_insert_ne h]

theorem lookup_modify (k k' : κ) (f : α → α) (t : Table κ α) :
    (modify k f t).lookup k' = if k' = k then (t.lookup k).map f else t.lookup k' := by
  unfold modify
  cases ht : t.lookup k with
  | none =>
    by_cases h : k' = k
    · subst h
      simp [ht]
    · simp [h]
  | some v => simp only [lookup_insert_eq, Option.map_some]

section Pass

omit [DecidableEq κ]

def filterEntries (f : κ → α → Option α) (es : List (Sigma fun _ : κ => α)) :
    List (Sigma fun _ : κ => α) :=
  es.filterMap fun e => (f e.1 e.2).map fun v => ⟨e.1, v⟩

theorem filterEntries_cons (f : κ → α → Option α) (k : κ) (v : α)
    (es : List (Sigma fun _ : κ => α)) : filterEntries f (⟨k, v⟩ :: es) =
      match f k v with
      | some w => ⟨k, w⟩ :: filterEntries f es
      | none => filterEntries f es := by
  unfold filterEntries
  cases h : f k v with
  | none => rw [List.filterMap_cons_none (by simp [h])]
  | some w => rw [List.filterMap_cons_some (b := ⟨k, w⟩) (by simp [h])]

theorem keys_filterEntries (f : κ → α → Option α) (es : List (Sigma fun _ : κ => α)) :
    (filterEntries f es).keys.Sublist es.keys := by
  induction es with
  | nil => exact List.Sublist.refl _
  | cons e es ih =>
    rw [filterEntries_cons]
    cases f e.1 e.2 with
    | none => exact ih.cons _
    | some w => exact ih.cons_cons _

/-- Every entry is rewritten or dropped. -/
def filterMap (f : κ → α → Option α) (t : Table κ α) : Table κ α :=
  ⟨filterEntries f t.entries, (keys_filterEntries f t.entries).nodup t.nodupKeys⟩

end Pass

/-- The entries that satisfy `p` are kept. -/
def retain (p : κ → α → Bool) (t : Table κ α) : Table κ α :=
  filterMap (fun k v => if p k v then some v else none) t

theorem lookup_filterMap (f : κ → α → Option α) (k : κ) (t : Table κ α) :
    (filterMap f t).lookup k = (t.lookup k).bind (f k) := by
  ext v
  have hleft : v ∈ (filterMap f t).lookup k ↔ ∃ w, ⟨k, w⟩ ∈ t.entries ∧ f k w = some v := by
    rw [AList.mem_lookup_iff]
    simp only [filterMap, filterEntries, List.mem_filterMap, Option.map_eq_some_iff, Sigma.mk.injEq]
    constructor
    · rintro ⟨⟨k', w⟩, hmem, u, hu, rfl, hv⟩
      exact ⟨w, hmem, by rw [hu, eq_of_heq hv]⟩
    · rintro ⟨w, hmem, hv⟩
      exact ⟨⟨k, w⟩, hmem, v, hv, rfl, HEq.rfl⟩
  rw [← Option.mem_def, hleft, Option.bind_eq_some_iff]
  constructor
  · rintro ⟨w, hmem, hv⟩
    exact ⟨w, AList.mem_lookup_iff.mpr hmem, hv⟩
  · rintro ⟨w, hmem, hv⟩
    exact ⟨w, AList.mem_lookup_iff.mp hmem, hv⟩

theorem lookup_retain (p : κ → α → Bool) (k : κ) (t : Table κ α) :
    (retain p t).lookup k = (t.lookup k).filter (p k) := by
  rw [retain, lookup_filterMap]
  cases t.lookup k with
  | none => rfl
  | some v => rfl

/-- A pass that keeps every entry. -/
theorem lookup_retain_of_forall {p : κ → α → Bool} {t : Table κ α}
    (h : ∀ e ∈ t.entries, p e.1 e.2 = true) (k : κ) : (retain p t).lookup k = t.lookup k := by
  rw [lookup_retain]
  cases hk : t.lookup k with
  | none => rfl
  | some v => exact Option.filter_eq_some_iff.mpr ⟨rfl, h ⟨k, v⟩ (AList.mem_lookup_iff.mp hk)⟩

omit [DecidableEq κ] in
theorem entries_retain (p : κ → α → Bool) (t : Table κ α) :
    (retain p t).entries = t.entries.filter fun e => p e.1 e.2 := by
  have hall : ∀ es : List (Sigma fun _ : κ => α),
      filterEntries (fun k v => if p k v then some v else none) es =
        es.filter fun e => p e.1 e.2 := by
    intro es
    induction es with
    | nil => rfl
    | cons e es ih =>
      rw [filterEntries_cons, List.filter_cons]
      by_cases he : p e.1 e.2
      · rw [if_pos he, if_pos he, ih]
      · rw [if_neg he, if_neg he, ih]
  exact hall t.entries

omit [DecidableEq κ] in
/-- A pass that keeps every entry is no pass at all. -/
theorem retain_eq_self {p : κ → α → Bool} {t : Table κ α}
    (h : ∀ e ∈ t.entries, p e.1 e.2 = true) : retain p t = t :=
  AList.ext ((entries_retain p t).trans (List.filter_eq_self.mpr h))

omit [DecidableEq κ] in
theorem retain_congr {p q : κ → α → Bool} {t : Table κ α}
    (h : ∀ e ∈ t.entries, p e.1 e.2 = q e.1 e.2) : retain p t = retain q t := by
  apply AList.ext
  rw [entries_retain, entries_retain, List.filter_congr h]

omit [DecidableEq κ] in
theorem retain_retain (p q : κ → α → Bool) (t : Table κ α) :
    retain p (retain q t) = retain (fun k v => p k v && q k v) t := by
  apply AList.ext
  rw [entries_retain, entries_retain, entries_retain, List.filter_filter]

/-- To erase a key is to keep the others. -/
theorem erase_eq_retain (k : κ) (t : Table κ α) :
    t.erase k = retain (fun k' _ => !decide (k' = k)) t := by
  have hall : ∀ es : List (Sigma fun _ : κ => α), es.NodupKeys →
      es.kerase k = es.filter fun e => !decide (e.1 = k) := by
    intro es hes
    induction es with
    | nil => rfl
    | cons e es ih =>
      rw [List.nodupKeys_cons] at hes
      by_cases he : k = e.1
      · rw [List.kerase_cons_eq he, List.filter_cons_of_neg (by simp [he]), List.filter_eq_self.mpr]
        intro e' he'
        have hne : e'.1 ≠ k := by
          rintro rfl
          exact hes.1 (he ▸ List.mem_keys_of_mem he')
        simp [hne]
      · rw [List.kerase_cons_ne he, List.filter_cons_of_pos (by simp [Ne.symm he]), ih hes.2]
  apply AList.ext
  rw [entries_retain]
  exact hall t.entries t.nodupKeys

theorem erase_eq_self {k : κ} {t : Table κ α} (h : t.lookup k = none) : t.erase k = t := by
  rw [erase_eq_retain]
  refine retain_eq_self fun e he => ?_
  have hne : e.1 ≠ k := by
    rintro rfl
    rw [AList.mem_lookup_iff.mpr he] at h
    cases h
  simp [hne]

omit [DecidableEq κ]

def size (t : Table κ α) : ℕ := t.entries.length

/-- The sum of a measure over the entries. -/
def weight (f : α → ℕ) (t : Table κ α) : ℕ := (t.entries.map fun e => f e.2).sum

@[simp] theorem size_empty : size (∅ : Table κ α) = 0 := rfl

@[simp] theorem weight_empty (f : α → ℕ) : weight f (∅ : Table κ α) = 0 := rfl

/-- A pass that never raises the measure of an entry never raises the weight. -/
theorem weight_filterMap_le {f : α → ℕ} {g : κ → α → Option α} (t : Table κ α)
    (h : ∀ k v w, g k v = some w → f w ≤ f v) : weight f (filterMap g t) ≤ weight f t := by
  have hsum : ∀ es : List (Sigma fun _ : κ => α),
      ((filterEntries g es).map fun e => f e.2).sum ≤ (es.map fun e => f e.2).sum := by
    intro es
    induction es with
    | nil => exact le_rfl
    | cons e es ih =>
      rw [filterEntries_cons, List.map_cons, List.sum_cons]
      cases he : g e.1 e.2 with
      | none =>
        dsimp only
        omega
      | some w =>
        rw [List.map_cons, List.sum_cons]
        exact Nat.add_le_add (h e.1 e.2 w he) ih
  exact hsum t.entries

/-- What a pass keeps and what it drops weigh as much as the table. -/
theorem weight_split (f : α → ℕ) (p : κ → α → Bool) (t : Table κ α) :
    weight f (retain p t) + weight f (retain (fun k v => !p k v) t) = weight f t := by
  unfold weight
  rw [entries_retain, entries_retain]
  have hall : ∀ es : List (Sigma fun _ : κ => α),
      ((es.filter fun e => p e.1 e.2).map fun e => f e.2).sum +
        ((es.filter fun e => !p e.1 e.2).map fun e => f e.2).sum =
          (es.map fun e => f e.2).sum := by
    intro es
    induction es with
    | nil => rfl
    | cons e es ih =>
      rw [List.map_cons, List.sum_cons]
      cases hp : p e.1 e.2 with
      | false =>
        rw [List.filter_cons_of_neg (by simp [hp]), List.filter_cons_of_pos (by simp [hp]),
          List.map_cons, List.sum_cons]
        omega
      | true =>
        rw [List.filter_cons_of_pos (by simp [hp]), List.filter_cons_of_neg (by simp [hp]),
          List.map_cons, List.sum_cons]
        omega
  exact hall t.entries

theorem weight_retain_none (f : α → ℕ) (t : Table κ α) :
    weight f (retain (fun _ _ => false) t) = 0 := by
  have hsplit := weight_split f (fun _ _ => true) t
  rw [retain_eq_self fun _ _ => rfl] at hsplit
  exact Nat.add_left_cancel hsplit

variable [DecidableEq κ]

/-- Taking an entry out takes its own measure. -/
theorem weight_erase (f : α → ℕ) (k : κ) (t : Table κ α) :
    weight f (t.erase k) + (t.lookup k).elim 0 f = weight f t := by
  have h : ∀ es : List (Sigma fun _ : κ => α),
      ((es.kerase k).map fun e => f e.2).sum + (es.dlookup k).elim 0 f =
        (es.map fun e => f e.2).sum := by
    intro es
    induction es with
    | nil => rfl
    | cons e es ih =>
      by_cases hk : k = e.1
      · obtain ⟨k', v⟩ := e
        obtain rfl : k = k' := hk
        have he : List.kerase k (⟨k, v⟩ :: es) = es :=
          List.kerase_cons_eq (β := fun _ : κ => α) rfl
        rw [he, List.dlookup_cons_eq, List.map_cons, List.sum_cons]
        exact add_comm _ _
      · rw [List.kerase_cons_ne hk, List.dlookup_cons_ne _ _ hk, List.map_cons, List.sum_cons,
          List.map_cons, List.sum_cons]
        omega
  exact h t.entries

theorem weight_insert (f : α → ℕ) (k : κ) (v : α) (t : Table κ α) :
    weight f (t.insert k v) + (t.lookup k).elim 0 f = f v + weight f t := by
  have h := weight_erase f k t
  have hi : weight f (t.insert k v) = f v + weight f (t.erase k) := by
    have he : (t.erase k).entries = t.entries.kerase k := rfl
    unfold weight
    rw [AList.entries_insert, he, List.map_cons, List.sum_cons]
  omega

/-- One key more to keep adds the measure of its entry. -/
theorem weight_retain_cons (f : α → ℕ) (k : κ) (ks : List κ) (t : Table κ α) :
    weight f (retain (fun k' _ => decide (k' ∈ k :: ks)) t) =
      weight f (retain (fun k' _ => decide (k' ∈ ks)) (t.erase k)) + (t.lookup k).elim 0 f := by
  have hweight := weight_erase f k (retain (fun k' _ => decide (k' ∈ k :: ks)) t)
  have hlookup : (retain (fun k' _ => decide (k' ∈ k :: ks)) t).lookup k = t.lookup k := by
    rw [lookup_retain]
    cases t.lookup k with
    | none => rfl
    | some v => simp
  have herase : (retain (fun k' _ => decide (k' ∈ k :: ks)) t).erase k =
      retain (fun k' _ => decide (k' ∈ ks)) (t.erase k) := by
    rw [erase_eq_retain, erase_eq_retain, retain_retain, retain_retain]
    congr 1
    funext k' v
    by_cases h : k' = k <;> simp [h]
  rw [← hweight, hlookup, herase]

end Tables
