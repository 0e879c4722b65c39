import SkinGetBE.SaturatingSearch
import SkinGetBE.Skin

/-!
# The search for a free name

The loop over the numbered names has no bound, and its counter saturates. It is a
saturating search: it returns the first free name, and never returns from a directory
that holds a file for every name it can form. Fewer than 2 ^ 32 files do not fill
a directory in that way.
-/
namespace SkinGetBE
open Octets Text SaturatingSearch

/-- The sum of two words of 32 bits, or the largest word. -/
def saturatingAdd (a b : ℕ) : ℕ := min (a + b) u32Max

/-- The loop for a number of rounds; `none` is a loop that is still running. -/
def stemLoop (fs : FileSystem) (skinsDir baseName : Str) : ℕ → ℕ → Option Str
  | 0, _ => none
  | rounds + 1, count =>
    let stem := numberedStem baseName count
    if stemIsFree fs skinsDir stem then some stem
    else stemLoop fs skinsDir baseName rounds (saturatingAdd count 1)

/-- The function with a bound on the rounds of its loop. -/
def searchStem (fs : FileSystem) (skinsDir baseName : Str) (rounds : ℕ) : Option Str :=
  if stemIsFree fs skinsDir baseName then some baseName
  else stemLoop fs skinsDir baseName rounds 1

/-- The call ends after some rounds, and with this stem. -/
def ReturnsStem (fs : FileSystem) (skinsDir baseName stem : Str) : Prop :=
  ∃ rounds, searchStem fs skinsDir baseName rounds = some stem

def numberIsFree (fs : FileSystem) (skinsDir baseName : Str) (count : ℕ) : Bool :=
  stemIsFree fs skinsDir (numberedStem baseName count)

/-- The plain name when it is free, else the one with the smallest number that is free. -/
inductive FirstFreeStem (fs : FileSystem) (skinsDir baseName : Str) : Str → Prop
  | plain (hfree : stemIsFree fs skinsDir baseName = true) :
      FirstFreeStem fs skinsDir baseName baseName
  | numbered (k : ℕ) (htaken : stemIsFree fs skinsDir baseName = false)
      (hfirst : First (numberIsFree fs skinsDir baseName) 1 k) :
      FirstFreeStem fs skinsDir baseName (numberedStem baseName k)

variable {fs : FileSystem} {skinsDir baseName stem : Str}

theorem stemLoop_eq (rounds count : ℕ) : stemLoop fs skinsDir baseName rounds count =
    (search (numberIsFree fs skinsDir baseName) u32Max rounds count).map
      (numberedStem baseName) := by
  induction rounds generalizing count with
  | zero => rfl
  | succ rounds ih =>
    unfold stemLoop search numberIsFree
    dsimp only
    split_ifs
    · rfl
    · exact ih _

theorem stemLoop_returns_iff : (∃ rounds stem, stemLoop fs skinsDir baseName rounds 1 = some stem) ↔
    ∃ k, 1 ≤ k ∧ k ≤ u32Max ∧ numberIsFree fs skinsDir baseName k = true := by
  rw [← search_returns_iff (show 1 ≤ u32Max by decide)]
  constructor
  · rintro ⟨rounds, stem, h⟩
    rw [stemLoop_eq, Option.map_eq_some_iff] at h
    obtain ⟨k, hk, -⟩ := h
    exact ⟨rounds, k, hk⟩
  · rintro ⟨rounds, k, h⟩
    refine ⟨rounds, numberedStem baseName k, ?_⟩
    rw [stemLoop_eq, h]
    rfl

theorem ReturnsStem.first (h : ReturnsStem fs skinsDir baseName stem) :
    FirstFreeStem fs skinsDir baseName stem := by
  obtain ⟨rounds, h⟩ := h
  unfold searchStem at h
  by_cases hfree : stemIsFree fs skinsDir baseName = true
  · rw [if_pos hfree] at h
    obtain rfl := Option.some.inj h
    exact .plain hfree
  · rw [if_neg hfree, stemLoop_eq, Option.map_eq_some_iff] at h
    obtain ⟨k, hk, rfl⟩ := h
    exact .numbered k (Bool.eq_false_of_not_eq_true hfree)
      (first_of_search (by decide) hk).1

theorem FirstFreeStem.unique {stem' : Str} (h : FirstFreeStem fs skinsDir baseName stem)
    (h' : FirstFreeStem fs skinsDir baseName stem') : stem = stem' := by
  cases h with
  | plain hfree =>
    cases h' with
    | plain _ => rfl
    | numbered k htaken _ => exact absurd hfree (by simp [htaken])
  | numbered k htaken hfirst =>
    cases h' with
    | plain hfree => exact absurd hfree (by simp [htaken])
    | numbered k' _ hfirst' => rw [hfirst.unique hfirst']

theorem exists_returnsStem_iff :
    (∃ stem, ReturnsStem fs skinsDir baseName stem) ↔ HasFreeStem fs skinsDir baseName := by
  unfold ReturnsStem HasFreeStem searchStem
  by_cases hfree : stemIsFree fs skinsDir baseName = true
  · exact iff_of_true ⟨baseName, 0, if_pos hfree⟩ (.inl hfree)
  · have htaken := Bool.eq_false_of_not_eq_true hfree
    simp only [htaken, Bool.false_eq_true, if_false, false_or]
    rw [exists_comm]
    exact stemLoop_returns_iff

/-- Until the counter saturates, it counts. -/
theorem numberedStemLoop_eq {fuel count : ℕ} (h : count + fuel = u32Max) :
    numberedStemLoop fs skinsDir baseName fuel count =
      stemLoop fs skinsDir baseName (fuel + 1) count := by
  induction fuel generalizing count with
  | zero => rfl
  | succ fuel ih =>
    have hnext : saturatingAdd count 1 = count + 1 := Nat.min_eq_left (by omega)
    rw [numberedStemLoop, stemLoop, hnext, ih (by omega)]

/-- The function that gives up where the counter saturates returns what the loop returns. -/
theorem nextAvailableStem_eq_some_iff : nextAvailableStem fs skinsDir baseName = some stem ↔
    ReturnsStem fs skinsDir baseName stem := by
  have hreturns : ∀ stem, nextAvailableStem fs skinsDir baseName = some stem →
      ReturnsStem fs skinsDir baseName stem := by
    intro stem h
    refine ⟨u32Max - 1 + 1, ?_⟩
    rw [← h, nextAvailableStem, searchStem, numberedStemLoop_eq (by decide)]
  refine ⟨hreturns stem, fun h => ?_⟩
  have hsome := (nextAvailableStem_isSome_iff fs skinsDir baseName).mpr
    (exists_returnsStem_iff.mp ⟨stem, h⟩)
  obtain ⟨stem', hstem'⟩ := Option.isSome_iff_exists.mp hsome
  rw [hstem', (hreturns stem' hstem').first.unique h.first]

/-- The search ends with the first free name exactly when one of the names that it can form
is free. -/
theorem nextAvailableStem_returns_iff (fs : FileSystem) (skinsDir baseName : Str) :
    (∃ stem, ReturnsStem fs skinsDir baseName stem ∧ FirstFreeStem fs skinsDir baseName stem) ↔
      HasFreeStem fs skinsDir baseName := by
  rw [← exists_returnsStem_iff]
  constructor
  · rintro ⟨stem, h, -⟩
    exact ⟨stem, h⟩
  · rintro ⟨stem, h⟩
    exact ⟨stem, h, h.first⟩

/-- What is put behind the base name; the plain name has the number zero. -/
def numberSuffix : ℕ → Str
  | 0 => []
  | k + 1 => '_' :: Nat.toDigits 10 (k + 1)

theorem numberSuffix_injective {i j : ℕ} (h : numberSuffix i = numberSuffix j) : i = j := by
  cases i with
  | zero =>
    cases j with
    | zero => rfl
    | succ j => cases h
  | succ i =>
    cases j with
    | zero => cases h
    | succ j => exact toDigits_injective (List.cons.inj h).2

theorem join_injective {dir name name' : Str}
    (hhead : name.head? = some '/' ↔ name'.head? = some '/')
    (h : FileSystem.join dir name = FileSystem.join dir name') : name = name' := by
  unfold FileSystem.join at h
  by_cases hslash : name.head? = some '/'
  · rwa [if_pos hslash, if_pos (hhead.mp hslash)] at h
  · rw [if_neg hslash, if_neg (mt hhead.mpr hslash)] at h
    split_ifs at h
    · exact List.append_cancel_left h
    · exact (List.cons.inj (List.append_cancel_left h)).2

theorem head_numbered (baseName : Str) (i : ℕ) {ext : Str} (hext : IsExtension ext) :
    (baseName ++ numberSuffix i ++ ext).head? = some '/' ↔ baseName.head? = some '/' := by
  cases baseName with
  | cons c rest => rfl
  | nil =>
    refine iff_of_false ?_ (by decide)
    cases i with
    | zero => rcases hext with rfl | rfl <;> decide
    | succ i => exact fun h => absurd (Option.some.inj h) (by decide)

/-- A file belongs to one number only. -/
theorem numbered_injective {i j : ℕ} {ext ext' : Str} (hext : IsExtension ext)
    (hext' : IsExtension ext')
    (h : FileSystem.join skinsDir (baseName ++ numberSuffix i ++ ext) =
      FileSystem.join skinsDir (baseName ++ numberSuffix j ++ ext')) : i = j := by
  have hname := join_injective
    ((head_numbered baseName i hext).trans (head_numbered baseName j hext').symm) h
  rw [List.append_assoc, List.append_assoc] at hname
  have hbehind := List.append_cancel_left hname
  obtain rfl := extension_eq hext hext' hbehind
  exact numberSuffix_injective (List.append_cancel_right hbehind)

/-- The file that stands in the way of a number. -/
def takenPath (fs : FileSystem) (skinsDir baseName : Str) (k : ℕ) : Str :=
  let stem := baseName ++ numberSuffix k
  if fs.pathExists (pngPath skinsDir stem) then pngPath skinsDir stem else jsonPath skinsDir stem

theorem takenPath_exists {k : ℕ}
    (h : stemIsFree fs skinsDir (baseName ++ numberSuffix k) = false) :
    fs.pathExists (takenPath fs skinsDir baseName k) = true := by
  unfold stemIsFree at h
  unfold takenPath
  dsimp only
  split_ifs with hpng
  · exact hpng
  · simpa [hpng] using h

theorem takenPath_injective {i j : ℕ}
    (h : takenPath fs skinsDir baseName i = takenPath fs skinsDir baseName j) : i = j := by
  unfold takenPath at h
  dsimp only at h
  split_ifs at h
  · exact numbered_injective (.inl rfl) (.inl rfl) h
  · exact numbered_injective (.inl rfl) (.inr rfl) h
  · exact numbered_injective (.inr rfl) (.inl rfl) h
  · exact numbered_injective (.inr rfl) (.inr rfl) h

/-- With fewer than `2 ^ 32` files the search ends within as many rounds as there are files. -/
theorem searchStem_of_few {paths : Finset Str}
    (hpaths : ∀ path, fs.pathExists path = true → path ∈ paths) (hfew : paths.card < 2 ^ 32)
    (skinsDir baseName : Str) :
    ∃ stem, searchStem fs skinsDir baseName paths.card = some stem := by
  have hex : ∃ k, 0 ≤ k ∧ k ≤ 0 + paths.card ∧
      stemIsFree fs skinsDir (baseName ++ numberSuffix k) = true :=
    exists_accepted_of_card (fun i _ j _ h => takenPath_injective h)
      fun j h => hpaths _ (takenPath_exists h)
  obtain ⟨k, -, hk, hfree⟩ := hex
  unfold searchStem
  by_cases hplain : stemIsFree fs skinsDir baseName = true
  · exact ⟨baseName, if_pos hplain⟩
  · cases k with
    | zero =>
      rw [numberSuffix, List.append_nil] at hfree
      exact absurd hfree hplain
    | succ k =>
      have hmax : u32Max + 1 = 2 ^ 32 := by decide
      obtain ⟨m, hm, hfirst⟩ :=
        @exists_first (numberIsFree fs skinsDir baseName) 1 (k + 1) (by omega) hfree
      have hsearch := search_of_first hfirst (show m ≤ u32Max by omega)
        (show m < 1 + paths.card by omega)
      refine ⟨numberedStem baseName m, ?_⟩
      rw [if_neg hplain, stemLoop_eq, hsearch]
      rfl

/-- An image for the plain name, and one for each number that the counter takes. -/
def crowdedPaths (skinsDir baseName : Str) : List Str :=
  pngPath skinsDir baseName ::
    (List.range u32Max).map fun k => pngPath skinsDir (numberedStem baseName (k + 1))

def crowdedSkins : FileSystem :=
  ⟨fun path => (crowdedPaths "skins".toList "Steve_a".toList).contains path, [], fun _ => none⟩

theorem crowdedSkins_never_returns :
    ¬ ∃ stem, ReturnsStem crowdedSkins "skins".toList "Steve_a".toList stem := by
  have htaken : ∀ stem, pngPath "skins".toList stem ∈
      crowdedPaths "skins".toList "Steve_a".toList →
        stemIsFree crowdedSkins "skins".toList stem = false := by
    intro stem hmem
    have hexists : crowdedSkins.pathExists (pngPath "skins".toList stem) = true := by
      unfold FileSystem.pathExists
      rw [Bool.or_eq_true]
      exact .inl (List.contains_iff_mem.mpr hmem)
    rw [stemIsFree, hexists]
    rfl
  rw [exists_returnsStem_iff]
  rintro (hfree | ⟨k, hk, hmax, hfree⟩)
  · rw [htaken _ List.mem_cons_self] at hfree
    cases hfree
  · obtain ⟨k, rfl⟩ : ∃ m, k = m + 1 := ⟨k - 1, by omega⟩
    have hmem := List.mem_map_of_mem (f := fun k =>
      pngPath "skins".toList (numberedStem "Steve_a".toList (k + 1))) (List.mem_range.mpr hmax)
    rw [htaken _ (List.mem_cons_of_mem _ hmem)] at hfree
    cases hfree

end SkinGetBE
