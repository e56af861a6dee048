import Tr069Agent.Data.ControlRoundTrip
import Tr069Agent.Data.CutFile

/-! # Control data that were not written to their end

The control file has no backup, but nothing of it is used before its checksum was found to be right.
-/

namespace Tr069Agent.Data

open Library Library.Lines

set_option autoImplicit false

/-- Two files whose pieces differ only in what is cut off give the same control data. -/
theorem readDmControl_congr {file other : Text}
    (h : (LineReader.open file).stripped = (LineReader.open other).stripped) (control : DmControl) :
    readDmControl control file = readDmControl control other := by
  have hRewound : LineReader.stripped { LineReader.open file with crcOK := true } =
      LineReader.stripped { LineReader.open other with crcOK := true } :=
    congrArg (fun fp : LineReader => { fp with crcOK := true }) h
  have hCrc := (readLines_congr h).2
  obtain ⟨hFirst, hNext⟩ := readln_congr hRewound
  obtain ⟨hSecond, hRest⟩ := readln_congr hNext
  have hLines := (readLines_congr hRest).1
  simp only [readDmControl, hCrc, hFirst, hSecond, hLines]

theorem noCrcLine_sampleControl : ∀ line ∈ controlLines sampleControl, isCrcLine line = false :=
  (noCrcLine_iff sampleControl).mpr ⟨by decide, by decide⟩

end Tr069Agent.Data
