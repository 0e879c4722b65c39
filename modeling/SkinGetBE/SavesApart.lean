import SkinGetBE.NumberedSaves

/-!
# Captures that are saved apart

A call looks for the two files of a stem and writes them later. A stem is safe
while no two calls stand between the look and the write: then every write goes to
a path without a file, and no two calls return the same path.
-/
namespace SkinGetBE
open Octets Text

theorem SaveCall.stem_unreserved (call : SaveCall) (c : Option ℕ) : Unreserved (call.stem c) := by
  have hbase := captureBaseName_unreserved call.capture.playerName call.capture.skinId
  cases c with
  | none => exact hbase
  | some count => exact numberedStem_unreserved hbase count

section Paths

variable {baseDir t u : Str}

theorem pngPath_injective (ht : Unreserved t) (hu : Unreserved u)
    (h : pngPath (skinsDirOf baseDir) t = pngPath (skinsDirOf baseDir) u) : t = u := by
  rw [pngPath_eq baseDir ht, pngPath_eq baseDir hu, List.append_cancel_left_eq,
    List.cons.injEq] at h
  exact List.append_cancel_right h.2

theorem jsonPath_injective (ht : Unreserved t) (hu : Unreserved u)
    (h : jsonPath (skinsDirOf baseDir) t = jsonPath (skinsDirOf baseDir) u) : t = u := by
  rw [jsonPath_eq baseDir ht, jsonPath_eq baseDir hu, List.append_cancel_left_eq,
    List.cons.injEq] at h
  exact List.append_cancel_right h.2

theorem pngPath_ne_jsonPath (ht : Unreserved t) (hu : Unreserved u) :
    pngPath (skinsDirOf baseDir) t ≠ jsonPath (skinsDirOf baseDir) u := by
  intro h
  rw [pngPath_eq baseDir ht, jsonPath_eq baseDir hu, List.append_cancel_left_eq,
    List.cons.injEq] at h
  exact absurd (extension_eq (.inl rfl) (.inr rfl) h.2) (by decide)

end Paths

namespace SharedSkins

/-- No file was written by two calls, and no path was returned by two. -/
structure KeepsCaptures (s : SharedSkins) : Prop where
  overwritten : s.log.Pairwise fun a b => a.2 = b.2 → a.1 = b.1
  returned : ∀ i j path, (s.calls i).phase = .returned (some (.ok (some path))) →
    (s.calls j).phase = .returned (some (.ok (some path))) → i = j

/-- The call is about to find a stem free while another call that has found its image missing has
not written it. -/
def Overlaps (baseDir : Str) (s : SharedSkins) (i : ℕ) : Prop :=
  ∃ t, At s i .png t ∧ stemIsFree s.fs (skinsDirOf baseDir) t = true ∧
    ∃ j, j ≠ i ∧ (At s j .json t ∨ At s j .image t)

/-- No step of the schedule overlaps. -/
def Separate (tools : CaptureTools) (baseDir : Str) : SharedSkins → List ℕ → Prop
  | _, [] => True
  | s, i :: schedule => ¬ Overlaps baseDir s i ∧ Separate tools baseDir (step tools baseDir s i)
      schedule

variable {tools : CaptureTools} {baseDir : Str} {s : SharedSkins} {i j : ℕ} {t u : Str}

theorem At.unreserved {phase : Option ℕ → SavePhase} (h : At s i phase t) : Unreserved t := by
  obtain ⟨c, -, rfl⟩ := h
  exact SaveCall.stem_unreserved _ c

theorem pathExists_write {fs fs' : FileSystem} {path p : Str} {contents : Bytes}
    (h : fs.write path contents = .ok fs') :
    fs'.pathExists p = true ↔ fs.pathExists p = true ∨ p = path := by
  unfold FileSystem.write at h
  split at h
  · cases h
  · cases h
    unfold FileSystem.pathExists
    simp [or_assoc]

/-- The call has found both files of the stem missing and is not done with them. -/
def Holds (s : SharedSkins) (i : ℕ) (t : Str) : Prop := At s i .image t ∨ At s i .sidecar t

/-- A stem has one holder, and every write goes to a path without a file. -/
structure Exclusive (baseDir : Str) (s : SharedSkins) : Prop where
  one : ∀ i j t, Holds s i t → Holds s j t → i = j
  second : ∀ i j t, i ≠ j → At s i .json t → At s j .json t ∨ Holds s j t →
    s.fs.pathExists (jsonPath (skinsDirOf baseDir) t) = true
  imageMissing : ∀ i t, At s i .json t ∨ At s i .image t →
    ¬ s.fs.pathExists (pngPath (skinsDirOf baseDir) t) = true
  sidecarMissing : ∀ i t, Holds s i t → ¬ s.fs.pathExists (jsonPath (skinsDirOf baseDir) t) = true
  imageWritten : ∀ i t, At s i .sidecar t → (i, pngPath (skinsDirOf baseDir) t) ∈ s.log
  logged : ∀ entry ∈ s.log, s.fs.pathExists entry.2 = true
  apart : s.log.Pairwise fun a b => a.2 ≠ b.2
  returned : ∀ i path, (s.calls i).phase = .returned (some (.ok (some path))) → (i, path) ∈ s.log

section Moving

variable {phase : SavePhase} {make : Option ℕ → SavePhase} {c : Option ℕ}

theorem At.of_moveTo (h : At (s.moveTo i phase) j make t) (hne : ∀ c, phase ≠ make c) :
    j ≠ i ∧ At s j make t := by
  unfold At moveTo at h
  dsimp only at h
  by_cases hj : j = i
  · rw [hj, Function.update_self] at h
    obtain ⟨c, hc, -⟩ := h
    exact absurd hc (hne c)
  · rw [Function.update_of_ne hj] at h
    exact ⟨hj, h⟩

theorem At.of_moveTo_same (h : At (s.moveTo i (make c)) j make t) (hmake : make.Injective) :
    (j ≠ i ∧ At s j make t) ∨ (j = i ∧ (s.calls i).stem c = t) := by
  unfold At moveTo at h
  dsimp only at h
  by_cases hj : j = i
  · rw [hj, Function.update_self] at h
    obtain ⟨c', hc, ht⟩ := h
    rw [← hmake hc] at ht
    exact .inr ⟨hj, ht⟩
  · rw [Function.update_of_ne hj] at h
    exact .inl ⟨hj, h⟩

theorem Holds.of_moveTo (h : Holds (s.moveTo i phase) j t) (himage : ∀ c, phase ≠ .image c)
    (hsidecar : ∀ c, phase ≠ .sidecar c) : j ≠ i ∧ Holds s j t := by
  rcases h with h | h
  · exact ⟨(h.of_moveTo himage).1, .inl (h.of_moveTo himage).2⟩
  · exact ⟨(h.of_moveTo hsidecar).1, .inr (h.of_moveTo hsidecar).2⟩

theorem phase_of_moveTo {q : SavePhase} (h : ((s.moveTo i phase).calls j).phase = q) :
    (j ≠ i ∧ (s.calls j).phase = q) ∨ (j = i ∧ phase = q) := by
  unfold moveTo at h
  dsimp only at h
  by_cases hj : j = i
  · rw [hj, Function.update_self] at h
    exact .inr ⟨hj, h⟩
  · rw [Function.update_of_ne hj] at h
    exact .inl ⟨hj, h⟩

end Moving

theorem json_injective : SavePhase.json.Injective := fun _ _ => SavePhase.json.inj

theorem image_injective : SavePhase.image.Injective := fun _ _ => SavePhase.image.inj

theorem sidecar_injective : SavePhase.sidecar.Injective := fun _ _ => SavePhase.sidecar.inj

/-- A call that goes on without a stem takes nothing from the others. -/
theorem Exclusive.moveTo (hs : Exclusive baseDir s) {phase : SavePhase}
    (hjson : ∀ c, phase ≠ .json c) (himage : ∀ c, phase ≠ .image c)
    (hsidecar : ∀ c, phase ≠ .sidecar c)
    (hreturned : ∀ path, phase = .returned (some (.ok (some path))) → (i, path) ∈ s.log) :
    Exclusive baseDir (s.moveTo i phase) where
  one a b t ha hb := hs.one a b t (ha.of_moveTo himage hsidecar).2 (hb.of_moveTo himage hsidecar).2
  second a b t hne ha hb := by
    apply hs.second a b t hne (ha.of_moveTo hjson).2
    exact hb.imp (fun h => (h.of_moveTo hjson).2) fun h => (h.of_moveTo himage hsidecar).2
  imageMissing a t ha := by
    apply hs.imageMissing a t
    exact ha.imp (fun h => (h.of_moveTo hjson).2) fun h => (h.of_moveTo himage).2
  sidecarMissing a t ha := hs.sidecarMissing a t (ha.of_moveTo himage hsidecar).2
  imageWritten a t ha := hs.imageWritten a t (ha.of_moveTo hsidecar).2
  logged := hs.logged
  apart := hs.apart
  returned a path ha := by
    rcases phase_of_moveTo ha with ⟨-, h⟩ | ⟨rfl, h⟩
    · exact hs.returned a path h
    · exact hreturned path h

theorem Exclusive.leave (hs : Exclusive baseDir s) {phase : SavePhase} (h : Idle phase) :
    Exclusive baseDir (s.moveTo i phase) := by
  apply hs.moveTo
  · rintro c rfl
    exact h
  · rintro c rfl
    exact h
  · rintro c rfl
    exact h
  · rintro path rfl
    exact h.elim

/-- The image of a stem that was found missing has no holder, unless the step overlaps. -/
theorem Exclusive.look (hs : Exclusive baseDir s) (hapart : ¬ Overlaps baseDir s i) {c : Option ℕ}
    (hphase : (s.calls i).phase = .png c)
    (hmissing : s.fs.pathExists (pngPath (skinsDirOf baseDir) ((s.calls i).stem c)) = false) :
    Exclusive baseDir (s.moveTo i (.json c)) := by
  have hother : ∀ b, b ≠ i → At s b .json ((s.calls i).stem c) ∨ Holds s b ((s.calls i).stem c) →
      s.fs.pathExists (jsonPath (skinsDirOf baseDir) ((s.calls i).stem c)) = true := by
    intro b hb hat
    by_contra hjson
    refine hapart ⟨_, ⟨c, hphase, rfl⟩, ?_, b, hb, ?_⟩
    · unfold stemIsFree
      rw [hmissing, Bool.eq_false_iff.mpr hjson]
      rfl
    · rcases hat with hat | hat | hat
      · exact .inl hat
      · exact .inr hat
      · have hpng := hs.logged _ (hs.imageWritten b _ hat)
        rw [hmissing] at hpng
        cases hpng
  constructor
  case one =>
    intro a b t ha hb
    exact hs.one a b t (ha.of_moveTo nofun nofun).2 (hb.of_moveTo nofun nofun).2
  case second =>
    intro a b t hne ha hb
    rcases ha.of_moveTo_same json_injective with ⟨-, hold⟩ | ⟨rfl, rfl⟩
    · rcases hb with hb | hb
      · rcases hb.of_moveTo_same json_injective with ⟨-, hb⟩ | ⟨rfl, rfl⟩
        · exact hs.second a b t hne hold (.inl hb)
        · exact hother a hne (.inl hold)
      · exact hs.second a b t hne hold (.inr (hb.of_moveTo nofun nofun).2)
    · apply hother b hne.symm
      refine hb.imp (fun h => ?_) fun h => (h.of_moveTo nofun nofun).2
      exact (h.of_moveTo_same json_injective).elim And.right fun h => absurd h.1.symm hne
  case imageMissing =>
    intro a t ha
    rcases ha with ha | ha
    · rcases ha.of_moveTo_same json_injective with ⟨-, ha⟩ | ⟨rfl, rfl⟩
      · exact hs.imageMissing a t (.inl ha)
      · rw [show (s.moveTo a (.json c)).fs = s.fs from rfl, hmissing]
        exact Bool.false_ne_true
    · exact hs.imageMissing a t (.inr (ha.of_moveTo nofun).2)
  case sidecarMissing =>
    intro a t ha
    exact hs.sidecarMissing a t (ha.of_moveTo nofun nofun).2
  case imageWritten =>
    intro a t ha
    exact hs.imageWritten a t (ha.of_moveTo nofun).2
  case logged => exact hs.logged
  case apart => exact hs.apart
  case returned =>
    intro a path ha
    rcases phase_of_moveTo ha with ⟨-, h⟩ | ⟨-, h⟩
    · exact hs.returned a path h
    · cases h

/-- The call that finds the sidecar missing as well is the only one at its stem. -/
theorem Exclusive.choose (hs : Exclusive baseDir s) {c : Option ℕ}
    (hphase : (s.calls i).phase = .json c)
    (hmissing : s.fs.pathExists (jsonPath (skinsDirOf baseDir) ((s.calls i).stem c)) = false) :
    Exclusive baseDir (s.moveTo i (.image c)) := by
  have hat : At s i .json ((s.calls i).stem c) := ⟨c, hphase, rfl⟩
  have hfree : ¬ s.fs.pathExists (jsonPath (skinsDirOf baseDir) ((s.calls i).stem c)) = true := by
    rw [hmissing]
    exact Bool.false_ne_true
  have hcases : ∀ a t, Holds (s.moveTo i (.image c)) a t →
      (a ≠ i ∧ Holds s a t) ∨ (a = i ∧ (s.calls i).stem c = t) := by
    intro a t ha
    rcases ha with ha | ha
    · exact (ha.of_moveTo_same image_injective).imp (fun h => ⟨h.1, .inl h.2⟩) id
    · exact .inl ⟨(ha.of_moveTo nofun).1, .inr (ha.of_moveTo nofun).2⟩
  constructor
  case one =>
    intro a b t ha hb
    rcases hcases a t ha with ⟨hne, hold⟩ | ⟨rfl, rfl⟩
    · rcases hcases b t hb with ⟨-, hb⟩ | ⟨rfl, rfl⟩
      · exact hs.one a b t hold hb
      · exact absurd (hs.second b a _ hne.symm hat (.inr hold)) hfree
    · rcases hcases b _ hb with ⟨hne, hb⟩ | ⟨rfl, -⟩
      · exact absurd (hs.second a b _ hne.symm hat (.inr hb)) hfree
      · rfl
  case second =>
    intro a b t hne ha hb
    have hold := (ha.of_moveTo nofun).2
    rcases hb with hb | hb
    · exact hs.second a b t hne hold (.inl (hb.of_moveTo nofun).2)
    · rcases hcases b t hb with ⟨-, hb⟩ | ⟨rfl, rfl⟩
      · exact hs.second a b t hne hold (.inr hb)
      · exact hs.second a b _ hne hold (.inl hat)
  case imageMissing =>
    intro a t ha
    rcases ha with ha | ha
    · exact hs.imageMissing a t (.inl (ha.of_moveTo nofun).2)
    · rcases ha.of_moveTo_same image_injective with ⟨-, ha⟩ | ⟨rfl, rfl⟩
      · exact hs.imageMissing a t (.inr ha)
      · exact hs.imageMissing a _ (.inl hat)
  case sidecarMissing =>
    intro a t ha
    rcases hcases a t ha with ⟨-, ha⟩ | ⟨rfl, rfl⟩
    · exact hs.sidecarMissing a t ha
    · exact hfree
  case imageWritten =>
    intro a t ha
    exact hs.imageWritten a t (ha.of_moveTo nofun).2
  case logged => exact hs.logged
  case apart => exact hs.apart
  case returned =>
    intro a path ha
    rcases phase_of_moveTo ha with ⟨-, h⟩ | ⟨-, h⟩
    · exact hs.returned a path h
    · cases h

/-- A write to a path without a file, while the calls stand where they stood. -/
theorem Exclusive.log_append (hs : Exclusive baseDir s) {fs : FileSystem} {path : Str}
    {contents : Bytes} (hwrite : s.fs.write path contents = .ok fs)
    (hmissing : ¬ s.fs.pathExists path = true) (i : ℕ) :
    (∀ entry ∈ s.log ++ [(i, path)], fs.pathExists entry.2 = true) ∧
      (s.log ++ [(i, path)]).Pairwise fun a b => a.2 ≠ b.2 := by
  constructor
  · intro entry hentry
    rw [pathExists_write hwrite]
    rcases List.mem_append.mp hentry with h | h
    · exact .inl (hs.logged entry h)
    · rw [List.mem_singleton.mp h]
      exact .inr rfl
  · rw [List.pairwise_append]
    refine ⟨hs.apart, List.pairwise_singleton _ _, fun a ha b hb hab => hmissing ?_⟩
    rw [List.mem_singleton.mp hb] at hab
    have hpath : a.2 = path := hab
    rw [← hpath]
    exact hs.logged a ha

theorem Exclusive.writeImage (hs : Exclusive baseDir s) {c : Option ℕ}
    (hphase : (s.calls i).phase = .image c) {fs : FileSystem} {contents : Bytes}
    (hwrite : s.fs.write (pngPath (skinsDirOf baseDir) ((s.calls i).stem c)) contents = .ok fs) :
    Exclusive baseDir ((s.wrote i (pngPath (skinsDirOf baseDir) ((s.calls i).stem c)) fs).moveTo i
      (.sidecar c)) := by
  have hat : At s i .image ((s.calls i).stem c) := ⟨c, hphase, rfl⟩
  obtain ⟨hlogged, hapart⟩ := hs.log_append hwrite (hs.imageMissing i _ (.inr hat)) i
  have hholds : ∀ a t, Holds ((s.wrote i (pngPath (skinsDirOf baseDir) ((s.calls i).stem c))
      fs).moveTo i (.sidecar c)) a t → Holds s a t := by
    intro a t ha
    rcases ha with ha | ha
    · exact .inl (ha.of_moveTo nofun).2
    · rcases ha.of_moveTo_same sidecar_injective with ⟨-, ha⟩ | ⟨rfl, rfl⟩
      · exact .inr ha
      · exact .inl hat
  constructor
  case one =>
    intro a b t ha hb
    exact hs.one a b t (hholds a t ha) (hholds b t hb)
  case second =>
    intro a b t hne ha hb
    apply (pathExists_write hwrite).mpr
    left
    exact hs.second a b t hne (ha.of_moveTo nofun).2
      (hb.imp (fun h => (h.of_moveTo nofun).2) (hholds b t))
  case imageMissing =>
    intro a t ha hexists
    have hne : a ≠ i := ha.elim (fun h => (h.of_moveTo nofun).1) fun h => (h.of_moveTo nofun).1
    have hold : At s a .json t ∨ At s a .image t :=
      ha.imp (fun h => (h.of_moveTo nofun).2) fun h => (h.of_moveTo nofun).2
    rcases (pathExists_write hwrite).mp hexists with h | h
    · exact hs.imageMissing a t hold h
    · have ht : t = (s.calls i).stem c :=
        pngPath_injective (hold.elim At.unreserved At.unreserved) hat.unreserved h
      rw [ht] at hold
      rcases hold with hold | hold
      · exact hs.sidecarMissing i _ (.inl hat) (hs.second a i _ hne hold (.inr (.inl hat)))
      · exact hne (hs.one a i _ (.inl hold) (.inl hat))
  case sidecarMissing =>
    intro a t ha hexists
    rcases (pathExists_write hwrite).mp hexists with h | h
    · exact hs.sidecarMissing a t (hholds a t ha) h
    · exact pngPath_ne_jsonPath hat.unreserved
        ((hholds a t ha).elim At.unreserved At.unreserved) h.symm
  case imageWritten =>
    intro a t ha
    rcases ha.of_moveTo_same sidecar_injective with ⟨-, ha⟩ | ⟨rfl, rfl⟩
    · exact List.mem_append_left _ (hs.imageWritten a t ha)
    · exact List.mem_append_right _ List.mem_cons_self
  case logged => exact hlogged
  case apart => exact hapart
  case returned =>
    intro a path ha
    rcases phase_of_moveTo ha with ⟨-, h⟩ | ⟨-, h⟩
    · exact List.mem_append_left _ (hs.returned a path h)
    · cases h

theorem Exclusive.writeSidecar (hs : Exclusive baseDir s) {c : Option ℕ}
    (hphase : (s.calls i).phase = .sidecar c) {fs : FileSystem} {contents : Bytes}
    (hwrite : s.fs.write (jsonPath (skinsDirOf baseDir) ((s.calls i).stem c)) contents = .ok fs) :
    Exclusive baseDir ((s.wrote i (jsonPath (skinsDirOf baseDir) ((s.calls i).stem c)) fs).moveTo i
      (.returned (some (.ok (some (pngPath (skinsDirOf baseDir) ((s.calls i).stem c))))))) := by
  have hat : At s i .sidecar ((s.calls i).stem c) := ⟨c, hphase, rfl⟩
  obtain ⟨hlogged, hapart⟩ := hs.log_append hwrite (hs.sidecarMissing i _ (.inr hat)) i
  constructor
  case one =>
    intro a b t ha hb
    exact hs.one a b t (ha.of_moveTo nofun nofun).2 (hb.of_moveTo nofun nofun).2
  case second =>
    intro a b t hne ha hb
    apply (pathExists_write hwrite).mpr
    left
    exact hs.second a b t hne (ha.of_moveTo nofun).2
      (hb.imp (fun h => (h.of_moveTo nofun).2) fun h => (h.of_moveTo nofun nofun).2)
  case imageMissing =>
    intro a t ha hexists
    have hold : At s a .json t ∨ At s a .image t :=
      ha.imp (fun h => (h.of_moveTo nofun).2) fun h => (h.of_moveTo nofun).2
    rcases (pathExists_write hwrite).mp hexists with h | h
    · exact hs.imageMissing a t hold h
    · exact pngPath_ne_jsonPath (hold.elim At.unreserved At.unreserved) hat.unreserved h
  case sidecarMissing =>
    intro a t ha hexists
    obtain ⟨hne, hold⟩ := ha.of_moveTo nofun nofun
    rcases (pathExists_write hwrite).mp hexists with h | h
    · exact hs.sidecarMissing a t hold h
    · have ht : t = (s.calls i).stem c :=
        jsonPath_injective (hold.elim At.unreserved At.unreserved) hat.unreserved h
      rw [ht] at hold
      exact hne (hs.one a i _ hold (.inr hat))
  case imageWritten =>
    intro a t ha
    exact List.mem_append_left _ (hs.imageWritten a t (ha.of_moveTo nofun).2)
  case logged => exact hlogged
  case apart => exact hapart
  case returned =>
    intro a path ha
    rcases phase_of_moveTo ha with ⟨-, h⟩ | ⟨rfl, h⟩
    · exact List.mem_append_left _ (hs.returned a path h)
    · cases h
      exact List.mem_append_left _ (hs.imageWritten a _ hat)

theorem exclusive_begin (baseDir : Str) (fs : FileSystem) (captures : ℕ → LoginCapture) :
    Exclusive baseDir (begin fs captures) := by
  have hnot : ∀ {i t make}, (∀ c, SavePhase.start ≠ make c) →
      ¬ At (begin fs captures) i make t := by
    rintro i t make hmake ⟨c, hc, -⟩
    exact hmake c hc
  have hholds : ∀ i t, ¬ Holds (begin fs captures) i t := fun i t h =>
    h.elim (hnot nofun) (hnot nofun)
  exact ⟨fun i _ t h => absurd h (hholds i t), fun _ _ _ _ h => absurd h (hnot nofun),
    fun _ _ h => absurd h (not_or.mpr ⟨hnot nofun, hnot nofun⟩), fun i t h => absurd h (hholds i t),
    fun _ _ h => absurd h (hnot nofun), nofun, .nil, nofun⟩

theorem step_exclusive (hs : Exclusive baseDir s) (hapart : ¬ Overlaps baseDir s i) :
    Exclusive baseDir (step tools baseDir s i) := by
  have hmoves := step_moves tools baseDir s i
  generalize step tools baseDir s i = s' at hmoves
  cases hmoves with
  | stay => exact hs
  | leave phase h => exact hs.leave h
  | look c hphase hmissing => exact hs.look hapart hphase hmissing
  | choose c hphase hmissing => exact hs.choose hphase hmissing
  | writeImage c hphase fs contents hwrite => exact hs.writeImage hphase hwrite
  | finish c hphase =>
    refine hs.moveTo nofun nofun nofun ?_
    rintro path ⟨⟩
    exact hs.imageWritten i _ ⟨c, hphase, rfl⟩
  | writeSidecar c hphase fs contents hwrite => exact hs.writeSidecar hphase hwrite

theorem run_exclusive (hs : Exclusive baseDir s) {schedule : List ℕ}
    (hseparate : Separate tools baseDir s schedule) :
    Exclusive baseDir (run tools baseDir s schedule) := by
  induction schedule generalizing s with
  | nil => exact hs
  | cons i schedule ih => exact ih (step_exclusive hs hseparate.1) hseparate.2

theorem Exclusive.keepsCaptures (hs : Exclusive baseDir s) : KeepsCaptures s where
  overwritten := hs.apart.imp fun hne heq => absurd heq hne
  returned i j path hi hj := by
    have hsymm : Std.Symm fun a b : ℕ × Str => a.2 ≠ b.2 := ⟨fun _ _ h => h.symm⟩
    by_contra hne
    exact hs.apart.forall (hs.returned i path hi) (hs.returned j path hj)
      (fun h => hne (congrArg Prod.fst h)) rfl

/-- Captures that are saved at the same time do not lose one another while their steps do not
overlap. -/
theorem run_keepsCaptures (tools : CaptureTools) (baseDir : Str) (fs : FileSystem)
    (captures : ℕ → LoginCapture) (schedule : List ℕ)
    (hseparate : Separate tools baseDir (begin fs captures) schedule) :
    KeepsCaptures (run tools baseDir (begin fs captures) schedule) :=
  (run_exclusive (exclusive_begin baseDir fs captures) hseparate).keepsCaptures

/-- The step of a call that has chosen its stem writes the image. -/
theorem step_image (hat : At s i .image t) (hfs : s.fs.WritesSucceed)
    (hpng : ∃ png, encodePngRgba tools (s.calls i).capture.skin.data
      (s.calls i).capture.skin.width (s.calls i).capture.skin.height = some (.ok png)) :
    (step tools baseDir s i).log = s.log ++ [(i, pngPath (skinsDirOf baseDir) t)] ∧
      (step tools baseDir s i).fs.WritesSucceed := by
  obtain ⟨c, hphase, rfl⟩ := hat
  obtain ⟨png, hpng⟩ := hpng
  have hwrite : s.fs.write (pngPath (skinsDirOf baseDir) ((s.calls i).stem c)) png =
      .ok { s.fs with
        written :=
          s.fs.written ++ [(pngPath (skinsDirOf baseDir) ((s.calls i).stem c), png)] } := by
    unfold FileSystem.write
    rw [hfs]
  unfold step
  simp only [hphase, hpng, hwrite]
  exact ⟨rfl, hfs⟩

/-- Both calls get to their write before either of them writes. -/
theorem run_overlap (tools : CaptureTools) (hover : Overlaps baseDir s i) :
    ∃ schedule j t, j ≠ i ∧ (run tools baseDir s schedule).fs = s.fs ∧
      At (run tools baseDir s schedule) i .image t ∧
      At (run tools baseDir s schedule) j .image t ∧
      ∀ k, ((run tools baseDir s schedule).calls k).capture = (s.calls k).capture := by
  obtain ⟨t, ⟨c, hphase, rfl⟩, hfree, j, hne, hj⟩ := hover
  unfold stemIsFree at hfree
  rw [Bool.and_eq_true, Bool.not_eq_true', Bool.not_eq_true'] at hfree
  obtain ⟨hpng, hjson⟩ := hfree
  have hmoved : ∀ (s : SharedSkins) (i : ℕ) phase k,
      ((s.moveTo i phase).calls k).capture = (s.calls k).capture := by
    intro s i phase k
    by_cases hk : k = i
    · rw [hk, calls_moveTo]
    · exact congrArg SaveCall.capture (Function.update_of_ne hk _ _)
  have hboth : run tools baseDir s [i, i] = s.moveTo i (.image c) := by
    show step tools baseDir (step tools baseDir s i) i = _
    rw [step_look hphase hpng, step_choose (c := c) (by rw [calls_moveTo])
      (by rw [calls_moveTo]; exact hjson), moveTo_moveTo]
  have hi : At (s.moveTo i (.image c)) i .image ((s.calls i).stem c) := by
    refine ⟨c, ?_, ?_⟩
    · rw [calls_moveTo]
    · rw [calls_moveTo]
      rfl
  have hother : (s.moveTo i (.image c)).calls j = s.calls j := Function.update_of_ne hne _ _
  rcases hj with ⟨c', hphase', hstem⟩ | ⟨c', hphase', hstem⟩
  · have hthird : run tools baseDir s [i, i, j] = (s.moveTo i (.image c)).moveTo j (.image c') := by
      show step tools baseDir (run tools baseDir s [i, i]) j = _
      rw [hboth]
      exact step_choose (hother ▸ hphase') (by rw [hother, hstem]; exact hjson)
    refine ⟨[i, i, j], j, (s.calls i).stem c, hne, ?_⟩
    rw [hthird]
    refine ⟨rfl, ?_, ⟨c', ?_, ?_⟩, fun k => (hmoved _ _ _ k).trans (hmoved _ _ _ k)⟩
    · unfold At at hi ⊢
      rw [show ((s.moveTo i (.image c)).moveTo j (.image c')).calls i =
        (s.moveTo i (.image c)).calls i from Function.update_of_ne hne.symm _ _]
      exact hi
    · rw [calls_moveTo]
    · rw [calls_moveTo, hother, ← hstem]
      rfl
  · refine ⟨[i, i], j, (s.calls i).stem c, hne, ?_⟩
    rw [hboth]
    refine ⟨rfl, hi, ⟨c', ?_, ?_⟩, hmoved _ _ _⟩
    · rw [hother, hphase']
    · rw [hother, hstem]

/-- From every step that overlaps, the two calls can go on so that one overwrites the other. -/
theorem overlap_overwrites (hfs : s.fs.WritesSucceed)
    (hencode : ∀ k, ∃ png, encodePngRgba tools (s.calls k).capture.skin.data
      (s.calls k).capture.skin.width (s.calls k).capture.skin.height = some (.ok png))
    (hover : Overlaps baseDir s i) :
    ∃ schedule, ¬ KeepsCaptures (run tools baseDir s schedule) := by
  obtain ⟨schedule, j, t, hne, hsame, hi, hj, hcapture⟩ := run_overlap tools hover
  rw [← hsame] at hfs
  obtain ⟨hfirst, hfs'⟩ := step_image hj hfs (by rw [hcapture]; exact hencode j)
  have hcalls := step_calls_other tools baseDir (run tools baseDir s schedule) hne.symm
  obtain ⟨hsecond, -⟩ := step_image (s := step tools baseDir (run tools baseDir s schedule) j)
    (i := i) (by unfold At at hi ⊢; rwa [hcalls]) hfs' (by rw [hcalls, hcapture]; exact hencode i)
  refine ⟨schedule ++ [j, i], fun h => hne ?_⟩
  have hlog := h.overwritten
  rw [run_append, show run tools baseDir (run tools baseDir s schedule) [j, i] =
    step tools baseDir (step tools baseDir (run tools baseDir s schedule) j) i from rfl, hsecond,
    hfirst, List.append_assoc] at hlog
  exact List.pairwise_pair.mp (List.pairwise_append.mp hlog).2.1 rfl

theorem run_calls_other (tools : CaptureTools) (baseDir : Str) (s : SharedSkins) (hne : j ≠ i)
    (n : ℕ) : (run tools baseDir s (List.replicate n i)).calls j = s.calls j := by
  induction n generalizing s with
  | zero => rfl
  | succ n ih => exact (ih _).trans (step_calls_other tools baseDir s hne)

/-- A call stays apart while the others are not between their look and their write. -/
theorem separate_replicate (tools : CaptureTools) (baseDir : Str) (s : SharedSkins)
    (h : ∀ j, j ≠ i → ∀ t, ¬ (At s j .json t ∨ At s j .image t)) (n : ℕ) :
    Separate tools baseDir s (List.replicate n i) := by
  induction n generalizing s with
  | zero => trivial
  | succ n ih =>
    constructor
    · rintro ⟨t, -, -, j, hne, hj⟩
      exact h j hne t hj
    · apply ih
      intro j hne t
      unfold At
      rw [step_calls_other tools baseDir s hne]
      exact h j hne t

theorem separate_append {a b : List ℕ} (ha : Separate tools baseDir s a)
    (hb : Separate tools baseDir (run tools baseDir s a) b) :
    Separate tools baseDir s (a ++ b) := by
  induction a generalizing s with
  | nil => exact hb
  | cons i a ih => exact ⟨ha.1, ih ha.2 hb⟩

/-- One pixel of a player `a` with the skin `b`. -/
def pixelCapture : LoginCapture :=
  ⟨"a".toList, "b".toList, ⟨none, none, none, none, none, none, none, none, none⟩,
    ⟨1, 1, [1, 2, 3, 4]⟩⟩

/-- The second call begins when the first has returned. -/
theorem run_keepsCaptures_inTurn : KeepsCaptures (run sampleTools [] (begin .empty fun _ =>
    pixelCapture) (List.replicate 5 0 ++ List.replicate 6 1)) := by
  refine run_keepsCaptures sampleTools [] .empty _ _ (separate_append ?_ ?_)
  · apply separate_replicate
    rintro j - t (⟨c, hc, -⟩ | ⟨c, hc, -⟩)
    · cases hc
    · cases hc
  · apply separate_replicate
    intro j hne t h
    have hphase : ((run sampleTools [] (begin .empty fun _ => pixelCapture)
        (List.replicate 5 0)).calls 0).phase =
          .returned (some (.ok (some "skins/a_b.png".toList))) := by decide +kernel
    unfold At at h
    by_cases hj : j = 0
    · rw [hj, hphase] at h
      rcases h with ⟨c, hc, -⟩ | ⟨c, hc, -⟩
      · cases hc
      · cases hc
    · rw [run_calls_other sampleTools [] _ hj] at h
      rcases h with ⟨c, hc, -⟩ | ⟨c, hc, -⟩
      · cases hc
      · cases hc

/-- The calls take turns at every step: both return one path, and each file is written twice. -/
theorem run_losesCaptures : ¬ KeepsCaptures (run sampleTools [] (begin .empty fun _ =>
    pixelCapture) [0, 1, 0, 1, 0, 1, 0, 1, 0, 1]) ∧
    (run sampleTools [] (begin .empty fun _ => pixelCapture) [0, 1, 0, 1, 0, 1, 0, 1, 0, 1]).log =
      [(0, "skins/a_b.png".toList), (1, "skins/a_b.png".toList), (0, "skins/a_b.json".toList),
        (1, "skins/a_b.json".toList)] := by
  refine ⟨fun h => ?_, by decide +kernel⟩
  have hsame := h.returned 0 1 "skins/a_b.png".toList (by decide +kernel) (by decide +kernel)
  cases hsame

end SharedSkins
end SkinGetBE
