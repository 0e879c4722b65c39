import SkinGetBE.Text
import Mathlib.Data.List.MinMax

/-!
# Versions of the game

The version that belongs to a protocol number. An unknown protocol has the
configured fallback, or else the version of the greatest known protocol.
-/
namespace SkinGetBE
open Text

def protocolMap : List (ℕ × String) :=
  [(70, "0.14.3"), (82, "0.15.6"), (100, "1.0.0"), (422, "1.16.201"), (428, "1.16.210"),
    (431, "1.16.220"), (440, "1.17.0"), (448, "1.17.10"), (465, "1.17.30"), (471, "1.17.40"),
    (475, "1.18.0"), (486, "1.18.11"), (503, "1.18.30"), (527, "1.19.1"), (534, "1.19.10"),
    (544, "1.19.20"), (545, "1.19.21"), (554, "1.19.30"), (557, "1.19.40"), (560, "1.19.50"),
    (567, "1.19.60"), (568, "1.19.63"), (575, "1.19.70"), (582, "1.19.80"), (589, "1.20.0"),
    (594, "1.20.10"), (618, "1.20.30"), (622, "1.20.40"), (630, "1.20.50"), (649, "1.20.61"),
    (662, "1.20.71"), (671, "1.20.80"), (685, "1.21.0"), (686, "1.21.2"), (712, "1.21.20"),
    (729, "1.21.30"), (748, "1.21.42"), (766, "1.21.50"), (776, "1.21.60"), (786, "1.21.70"),
    (800, "1.21.80"), (818, "1.21.90"), (819, "1.21.93"), (827, "1.21.100"), (844, "1.21.111"),
    (859, "1.21.120"), (860, "1.21.124"), (898, "1.21.130"), (924, "1.26.0"), (944, "1.26.10"),
    (975, "1.26.21"), (1001, "26.35"), (2168, "26.44"), (2169, "26.45"), (2193, "26.52"),
    (2225, "26.60")]

/-- No protocol number is entered twice, so the order of the entries is irrelevant. -/
theorem protocolMap_nodup : (protocolMap.map Prod.fst).Nodup := by decide

theorem protocolMap_argmax : protocolMap.argmax Prod.fst = some (2225, "26.60") := by decide

def getLatestProtocol (fallback : UInt16) : UInt16 :=
  match protocolMap.argmax Prod.fst with
  | some entry => UInt16.ofNat entry.1
  | none => fallback

def getLatestVersion (fallback : Str) : Str :=
  match protocolMap.argmax Prod.fst with
  | some entry => entry.2.toList
  | none => fallback

theorem getLatestProtocol_eq (fallback : UInt16) : getLatestProtocol fallback = 2225 := by
  rw [getLatestProtocol, protocolMap_argmax]
  rfl

theorem getLatestVersion_eq (fallback : Str) : getLatestVersion fallback = "26.60".toList := by
  rw [getLatestVersion, protocolMap_argmax]

def resolveVersion (fallback : Str) (protocol : ℕ) : Str :=
  match protocolMap.lookup protocol with
  | some version => version.toList
  | none => if fallback.isEmpty then getLatestVersion fallback else fallback

/-- A protocol resolves to a version of the table, or to the fallback. -/
theorem resolveVersion_mem (fallback : Str) (protocol : ℕ) :
    resolveVersion fallback protocol = fallback ∨
      ∃ entry ∈ protocolMap, resolveVersion fallback protocol = entry.2.toList := by
  unfold resolveVersion
  cases h : protocolMap.lookup protocol with
  | some version =>
    obtain ⟨l₁, l₂, hl, -⟩ := List.lookup_eq_some_iff.mp h
    exact .inr ⟨(protocol, version), by simp [hl], rfl⟩
  | none =>
    by_cases hf : fallback.isEmpty
    · dsimp only
      rw [if_pos hf, getLatestVersion_eq]
      exact .inr ⟨(2225, "26.60"), List.argmax_mem protocolMap_argmax, rfl⟩
    · exact .inl (if_neg hf)

end SkinGetBE
