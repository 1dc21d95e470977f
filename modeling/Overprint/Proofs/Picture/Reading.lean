import Overprint.Codec.Picture.Decoding
import Overprint.Proofs.Picture.Samples

/-!
# Files that are read have the samples of their pixels

Whatever file of samples is read as a picture, the samples that are kept fill the rectangle that its
header promises.
-/

namespace Overprint

namespace Layout

def sampleSize (layout : Layout) : Nat :=
  if layout.wide then 2 else 1

end Layout

namespace Raster

theorem isFilled_ofBytes? {layout : Layout} {width height : Nat} {bytes : List UInt8}
    {raster : Raster} (hraster : ofBytes? layout width height bytes = some raster) :
    raster.IsFilled := by
  rw [ofBytes?] at hraster
  split at hraster
  next hlength =>
    cases hraster
    exact hlength
  next => cases hraster

end Raster

namespace Netpbm

variable {layout : Layout} {bytes samples : List UInt8} {count : Nat} {raster : Raster}

theorem length_sampleBytes (layout : Layout) (sample : Nat) :
    (sampleBytes layout sample).length = layout.sampleSize := by
  rw [sampleBytes, Layout.sampleSize]
  split <;> rfl

theorem length_samplesOf (layout : Layout) (data : List UInt8) :
    (samplesOf layout data).length = data.length / layout.sampleSize := by
  rw [Layout.sampleSize]
  fun_induction samplesOf layout data with
  | case1 high low rest hwide ih =>
    rw [if_pos hwide] at ih ⊢
    rw [List.length_cons, ih, List.length_cons, List.length_cons]
    omega
  | case2 high low rest hnarrow ih =>
    rw [if_neg hnarrow, Nat.div_one] at ih ⊢
    rw [List.length_cons, ih]
    rfl
  | case3 last hwide => simp [hwide]
  | case4 last hnarrow => simp [hnarrow]
  | case5 => simp

theorem length_flatMap_sampleBytes (layout : Layout) (rescale : Nat → Nat) (levels : List Nat) :
    (levels.flatMap fun sample => sampleBytes layout (rescale sample)).length =
      levels.length * layout.sampleSize := by
  induction levels with
  | nil => exact (Nat.zero_mul _).symm
  | cons level rest ih =>
    rw [List.flatMap_cons, List.length_append, length_sampleBytes, ih, List.length_cons,
      Nat.succ_mul, Nat.add_comm]

theorem isFilled_scaled (hfilled : raster.IsFilled) (greatest : Nat) :
    (scaled greatest raster).IsFilled := by
  rw [scaled]
  split
  · exact hfilled
  · have hpos : 0 < raster.layout.sampleSize := by
      rw [Layout.sampleSize]
      split <;> decide
    have hlength : raster.samples.length =
        raster.width * raster.height * raster.layout.channels * raster.layout.sampleSize :=
      hfilled.trans (Nat.mul_assoc ..).symm
    rw [Raster.IsFilled, length_flatMap_sampleBytes, length_samplesOf, hlength,
      Nat.mul_div_cancel _ hpos, ← hlength]
    exact hfilled

theorem length_wordSamples? (hsamples : wordSamples? layout count bytes = some samples) :
    samples.length = count * layout.sampleSize := by
  induction count generalizing bytes samples with
  | zero =>
    cases hsamples
    exact (Nat.zero_mul _).symm
  | succ count ih =>
    obtain ⟨sample, -, hsamples⟩ := Option.bind_eq_some_iff.1 hsamples
    obtain ⟨rest, hrest, hsamples⟩ := Option.bind_eq_some_iff.1 hsamples
    cases hsamples
    rw [List.length_append, length_sampleBytes, ih hrest, Nat.succ_mul, Nat.add_comm]

theorem length_bitSamples? (hsamples : bitSamples? count bytes = some samples) :
    samples.length = count := by
  induction count generalizing bytes samples with
  | zero =>
    cases hsamples
    rfl
  | succ count ih =>
    rw [bitSamples?] at hsamples
    split at hsamples
    · obtain ⟨rest, hrest, rfl⟩ := Option.map_eq_some_iff.1 hsamples
      rw [List.length_cons, ih hrest]
    · obtain ⟨rest, hrest, rfl⟩ := Option.map_eq_some_iff.1 hsamples
      rw [List.length_cons, ih hrest]
    · cases hsamples

theorem length_packedSamples? {width : Nat}
    (hsamples : packedSamples? width count bytes = some samples) :
    samples.length = width * count := by
  induction count generalizing bytes samples with
  | zero =>
    cases hsamples
    rfl
  | succ count ih =>
    rw [packedSamples?] at hsamples
    split at hsamples
    next hzero =>
      cases hsamples
      rw [hzero, Nat.zero_mul]
      rfl
    next hwidth =>
      dsimp only at hsamples
      split at hsamples
      · cases hsamples
      · obtain ⟨rest, hrest, hsamples⟩ := Option.bind_eq_some_iff.1 hsamples
        cases hsamples
        rw [List.length_append, List.length_map, List.length_range, ih hrest, Nat.mul_succ,
          Nat.add_comm]

theorem isFilled_plain? {colored inDigits : Bool}
    (hraster : plain? colored inDigits bytes = some raster) : raster.IsFilled := by
  obtain ⟨⟨width, afterWidth⟩, -, hraster⟩ := Option.bind_eq_some_iff.1 hraster
  obtain ⟨⟨height, afterHeight⟩, -, hraster⟩ := Option.bind_eq_some_iff.1 hraster
  obtain ⟨⟨greatest, rest⟩, -, hraster⟩ := Option.bind_eq_some_iff.1 hraster
  dsimp only at hraster
  split at hraster
  · cases hraster
  · split at hraster
    · obtain ⟨samples, hsamples, hraster⟩ := Option.bind_eq_some_iff.1 hraster
      cases hraster
      refine isFilled_scaled ?_ greatest
      exact (length_wordSamples? hsamples).trans (Nat.mul_assoc ..)
    · obtain ⟨read, hread, hraster⟩ := Option.bind_eq_some_iff.1 hraster
      cases hraster
      exact isFilled_scaled (Raster.isFilled_ofBytes? hread) greatest

theorem isFilled_bits? {inDigits : Bool} (hraster : bits? inDigits bytes = some raster) :
    raster.IsFilled := by
  obtain ⟨⟨width, afterWidth⟩, -, hraster⟩ := Option.bind_eq_some_iff.1 hraster
  obtain ⟨⟨height, rest⟩, -, hraster⟩ := Option.bind_eq_some_iff.1 hraster
  have hfilled {samples : List UInt8} (hlength : samples.length = width * height) :
      Raster.IsFilled { layout := ⟨false, false, false⟩, width, height, samples } :=
    hlength.trans (Nat.mul_one _).symm
  dsimp only at hraster
  split at hraster
  · obtain ⟨samples, hsamples, hraster⟩ := Option.bind_eq_some_iff.1 hraster
    cases hraster
    exact hfilled (length_bitSamples? hsamples)
  · obtain ⟨samples, hsamples, hraster⟩ := Option.bind_eq_some_iff.1 hraster
    cases hraster
    exact hfilled (length_packedSamples? hsamples)

theorem isFilled_lined? (hraster : lined? bytes = some raster) : raster.IsFilled := by
  rw [lined?.eq_def] at hraster
  split at hraster
  next start =>
    obtain ⟨⟨lines, rest⟩, -, hraster⟩ := Option.bind_eq_some_iff.1 hraster
    obtain ⟨width, -, hraster⟩ := Option.bind_eq_some_iff.1 hraster
    obtain ⟨height, -, hraster⟩ := Option.bind_eq_some_iff.1 hraster
    obtain ⟨depth, -, hraster⟩ := Option.bind_eq_some_iff.1 hraster
    obtain ⟨greatest, -, hraster⟩ := Option.bind_eq_some_iff.1 hraster
    split at hraster
    · cases hraster
    · obtain ⟨rule, -, hraster⟩ := Option.bind_eq_some_iff.1 hraster
      obtain ⟨read, hread, hraster⟩ := Option.bind_eq_some_iff.1 hraster
      split at hraster
      · cases hraster
      · cases hraster
        exact isFilled_scaled (Raster.isFilled_ofBytes? hread) greatest
  next => cases hraster

theorem isFilled_read? (hraster : read? bytes = some raster) : raster.IsFilled := by
  rw [read?.eq_def] at hraster
  split at hraster
  · exact isFilled_bits? hraster
  · exact isFilled_plain? hraster
  · exact isFilled_plain? hraster
  · exact isFilled_bits? hraster
  · exact isFilled_plain? hraster
  · exact isFilled_plain? hraster
  · exact isFilled_lined? hraster
  · cases hraster

end Netpbm

namespace Picture

theorem isFilled_farbfeld? {data : ByteArray} {raster : Raster}
    (hraster : farbfeld? data = some raster) : raster.IsFilled := by
  obtain ⟨width, -, hraster⟩ := Option.bind_eq_some_iff.1 hraster
  obtain ⟨height, -, hraster⟩ := Option.bind_eq_some_iff.1 hraster
  exact Raster.isFilled_ofBytes? hraster

theorem isFilled_of_decoded {data : ByteArray} {raster : Raster}
    (hdecoded : decoded data = .ok (.raster raster)) : raster.IsFilled := by
  rw [decoded] at hdecoded
  dsimp only at hdecoded
  split at hdecoded
  case h_1 => cases hdecoded
  case h_2 =>
    cases hread : Netpbm.read? data.toList with
    | none =>
      rw [hread] at hdecoded
      cases hdecoded
    | some read =>
      rw [hread] at hdecoded
      cases hdecoded
      exact Netpbm.isFilled_read? hread
  case h_3 =>
    cases hread : farbfeld? data with
    | none =>
      rw [hread] at hdecoded
      cases hdecoded
    | some read =>
      rw [hread] at hdecoded
      cases hdecoded
      exact isFilled_farbfeld? hread
  case h_4 =>
    cases hread : (Jpeg.read? data).filter fits with
    | none =>
      rw [hread] at hdecoded
      cases hdecoded
    | some description =>
      rw [hread] at hdecoded
      cases hdecoded
  case h_5 => cases hdecoded

end Picture

end Overprint
