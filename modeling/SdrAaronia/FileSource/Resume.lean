import SdrAaronia.FileSource.Sequential

/-! # The resuming scan

A read looks for its chunk from where the last one was found.  Each sub-stream
counts from zero without gaps, so under one filter the chunks behind the hint
have all ended and the scan finds what a scan of the whole file would.
-/

namespace SdrAaronia

open HttpStreaming

namespace RtsaSource

variable {Real Sample : Type} (decoder : SampleDecoder Real Sample)

/-- The states in which a read begun in `s` scans for a chunk: its own, and those
after each chunk that it skips. -/
inductive Scanning (numSamples : Nat) (subStreamId : Option Nat) (s : RtsaSource) :
    RtsaSource → Prop where
  | first : Scanning numSamples subStreamId s s
  | again {t t' : RtsaSource} {chunk : Nat × SampChunk} {idx : Nat}
      (earlier : Scanning numSamples subStreamId s t)
      (found : t.findChunk subStreamId = some (chunk, idx))
      (skipped : { t with chunkScanHint := idx }.readChunk decoder chunk numSamples =
        (.ok none, t')) : Scanning numSamples subStreamId s t'

/-- An open file on which the scans of one filter are in file order. -/
structure Resumes (s : RtsaSource) (subStreamId : Option Nat) : Prop extends Indexed s where
  caught : s.CaughtFor subStreamId

variable {decoder} {s : RtsaSource} {numSamples : Nat} {subStreamId : Option Nat}

theorem Resumes.advance (resumes : s.Resumes subStreamId) {chunk : Nat × SampChunk} {idx : Nat}
    (found : s.findChunk subStreamId = some (chunk, idx)) {s' : RtsaSource}
    (same : SameFile s s') (later : s.currentSampleIndex ≤ s'.currentSampleIndex)
    (hint : s'.chunkScanHint = idx) : s'.Resumes subStreamId where
  toIndexed := resumes.toIndexed.same same
  caught := by
    intro earlier taken
    rcases findChunk_firstFor resumes.toIndexed resumes.caught with missing | first
    · rw [missing.1] at found
      cases found
    · obtain ⟨before, chunk', after, split, ended, -, found'⟩ := first
      obtain ⟨-, rfl⟩ := Prod.mk.inj (Option.some.inj (found.symm.trans found'))
      rw [same.sampChunkOffsets, split, hint, List.take_left] at taken
      have passed := of_decide_eq_false (ended earlier taken)
      apply decide_eq_false
      rw [same.iqStreamId, same.endOf]
      intro past
      exact passed ⟨past.1, past.2.1, by omega⟩

/-- Whatever comes of the chunk found, the cursor does not go back. -/
theorem Resumes.readFound (resumes : s.Resumes subStreamId) {chunk : Nat × SampChunk} {idx : Nat}
    (found : s.findChunk subStreamId = some (chunk, idx)) (numSamples : Nat) :
    ({ s with chunkScanHint := idx }.readChunk decoder chunk numSamples).2.Resumes
      subStreamId := by
  have holds := (selects_iff.mp (findChunk_some found).2).2.2.1
  rcases readFound_cases decoder s chunk idx numSamples with failed | read | passed
  · obtain ⟨e, position, failed⟩ := failed
    rw [failed]
    exact resumes.advance found ⟨rfl, rfl, rfl, rfl, rfl, rfl, rfl⟩ (le_refl _) rfl
  · rw [read.2.2.2.2]
    exact resumes.advance found (s.afterRead_sameFile chunk idx numSamples)
      (Nat.le_add_right _ _) rfl
  · rw [passed.2.2]
    exact resumes.advance found (s.afterSkip_sameFile chunk idx) holds.le rfl

theorem Scanning.resumes {t : RtsaSource} (scanning : Scanning decoder numSamples subStreamId s t)
    (resumes : s.Resumes subStreamId) : t.Resumes subStreamId := by
  induction scanning with
  | first => exact resumes
  | @again t t' chunk idx earlier found skipped ih =>
      have later : ({ t with chunkScanHint := idx }.readChunk decoder chunk numSamples).2.Resumes
          subStreamId := ih.readFound found numSamples
      rw [skipped] at later
      exact later

theorem Scanning.sameFile {t : RtsaSource}
    (scanning : Scanning decoder numSamples subStreamId s t) : SameFile s t := by
  induction scanning with
  | first => exact SameFile.refl s
  | @again t t' chunk idx earlier found skipped ih =>
      have same := readChunk_sameFile decoder { t with chunkScanHint := idx } chunk numSamples
      rw [skipped] at same
      have hinted : SameFile t { t with chunkScanHint := idx } :=
        ⟨rfl, rfl, rfl, rfl, rfl, rfl, rfl⟩
      exact ih.trans (hinted.trans same)

theorem Scanning.trans {t u : RtsaSource} (begun : Scanning decoder numSamples subStreamId s t)
    (later : Scanning decoder numSamples subStreamId t u) :
    Scanning decoder numSamples subStreamId s u := by
  induction later with
  | first => exact begun
  | again _ found skipped ih => exact .again ih found skipped

variable (decoder) in
/-- A read is its last scan and what comes of the chunk that scan finds. -/
theorem readSamples_scanning (standard : s.rawIqDataEndOffset = none) (numSamples : Nat)
    (subStreamId : Option Nat) :
    ∃ t, Scanning decoder numSamples subStreamId s t ∧
      ((t.findChunk subStreamId = none ∧
          s.readSamples decoder numSamples subStreamId = (.ok none, t)) ∨
        ∃ chunk idx, t.findChunk subStreamId = some (chunk, idx) ∧
          s.readSamples decoder numSamples subStreamId =
            { t with chunkScanHint := idx }.readChunk decoder chunk numSamples ∧
          (s.readSamples decoder numSamples subStreamId).1 ≠ .ok none) := by
  induction left : s.pending using Nat.strong_induction_on generalizing s with
  | _ k ih =>
      have unfolded := readSamples_eq decoder standard numSamples subStreamId
      cases hit : s.findChunk subStreamId with
      | none => exact ⟨s, .first, .inl ⟨hit, by rw [unfolded]; simp only [hit]⟩⟩
      | some entry =>
          obtain ⟨chunk, idx⟩ := entry
          obtain ⟨at_, selected⟩ := findChunk_some hit
          have holds := (selects_iff.mp selected).2.2.1
          simp only [hit] at unfolded
          rcases readFound_cases decoder s chunk idx numSamples with failed | read | passed
          · obtain ⟨e, position, failed⟩ := failed
            simp only [failed] at unfolded
            refine ⟨s, .first, .inr ⟨chunk, idx, hit, unfolded.trans failed.symm, ?_⟩⟩
            rw [unfolded]
            simp
          · simp only [read.2.2.2.2] at unfolded
            refine ⟨s, .first, .inr ⟨chunk, idx, hit, unfolded.trans read.2.2.2.2.symm, ?_⟩⟩
            rw [unfolded]
            simp
          · simp only [passed.2.2] at unfolded
            have fewer := pending_skip (s.afterSkip_sameFile chunk idx)
              (List.mem_of_getElem? at_) holds rfl
            have later : (s.afterSkip chunk idx).rawIqDataEndOffset = none := standard
            obtain ⟨t, scanning, ends⟩ :=
              ih (s.afterSkip chunk idx).pending (by omega) later rfl
            rw [← unfolded] at ends
            exact ⟨t, (Scanning.first.again hit passed.2.2).trans scanning, ends⟩

variable (decoder) in
theorem Resumes.read (resumes : s.Resumes subStreamId) (numSamples : Nat) :
    (s.readSamples decoder numSamples subStreamId).2.Resumes subStreamId := by
  obtain ⟨t, scanning, ends⟩ :=
    readSamples_scanning decoder resumes.standard numSamples subStreamId
  have last := scanning.resumes resumes
  rcases ends with ⟨-, ended⟩ | ⟨chunk, idx, found, read, -⟩
  · rw [ended]
    exact last
  · rw [read]
    exact last.readFound found numSamples

/-- A scan that starts at the front of the file is in order. -/
theorem Indexed.resumes (indexed : s.Indexed) (front : s.chunkScanHint = 0)
    (subStreamId : Option Nat) : s.Resumes subStreamId where
  toIndexed := indexed
  caught := by
    intro chunk taken
    rw [front, List.take_zero] at taken
    cases taken

theorem seekToSample_error {s' : RtsaSource} {sampleIndex : Nat} {e : Error}
    (refused : s.seekToSample sampleIndex = (.error e, s')) : s' = s := by
  rw [seekToSample] at refused
  split at refused
  · exact (Prod.mk.inj refused).2.symm
  · split at refused
    · simp at refused
    · simp only at refused
      split at refused
      · exact (Prod.mk.inj refused).2.symm
      · split at refused
        · exact (Prod.mk.inj refused).2.symm
        · simp at refused

theorem Resumes.seek (resumes : s.Resumes subStreamId) (sampleIndex : Nat) :
    (s.seekToSample sampleIndex).2.Resumes subStreamId := by
  cases result : s.seekToSample sampleIndex with
  | mk outcome s' =>
      cases outcome with
      | error e =>
          obtain rfl := seekToSample_error result
          exact resumes
      | ok _ =>
          have same := seekToSample_sameFile s sampleIndex
          rw [result] at same
          exact (resumes.toIndexed.same same).resumes (seekToSample_ok resumes.standard result).2
            subStreamId

theorem reset_front (s : RtsaSource) : s.reset.2.chunkScanHint = 0 := by
  rw [reset]
  simp only
  split <;> rfl

/-- A call that reads, if at all, under the filter. -/
def Filtered (subStreamId : Option Nat) : RtsaCall → Prop
  | .readSamples _ filter => filter = subStreamId
  | _ => True

theorem Resumes.call (resumes : s.Resumes subStreamId) {c : RtsaCall}
    (filtered : Filtered subStreamId c) : (s.call decoder c).Resumes subStreamId := by
  cases c with
  | readSamples numSamples filter =>
      cases filtered
      exact resumes.read decoder numSamples
  | seekToSample sampleIndex => exact resumes.seek sampleIndex
  | reset =>
      exact (resumes.toIndexed.same (reset_sameFile s)).resumes (reset_front s) subStreamId

theorem Resumes.run (resumes : s.Resumes subStreamId) {calls : List RtsaCall}
    (filtered : ∀ c ∈ calls, Filtered subStreamId c) :
    (s.run decoder calls).Resumes subStreamId := by
  induction calls generalizing s with
  | nil => exact resumes
  | cons c calls ih =>
      exact ih (resumes.call (filtered c List.mem_cons_self))
        fun later member => filtered later (List.mem_cons_of_mem _ member)

/-- The scan of the whole file, from its front. -/
def fullScan (s : RtsaSource) (subStreamId : Option Nat) : Option (Nat × SampChunk) :=
  s.sampChunkOffsets.find? (s.selects subStreamId)

theorem Resumes.findChunk_full (resumes : s.Resumes subStreamId) :
    (s.findChunk subStreamId).map Prod.fst = s.fullScan subStreamId := by
  rw [findChunk_resumed resumes.caught, fullScan]
  conv_rhs => rw [← List.zipIdx_map_fst 0 s.sampChunkOffsets, List.find?_map]
  rfl

variable (decoder) in
/-- **The resuming scan is the full scan.**  Under one filter, after any calls,
every scan of a read finds the first chunk of the file that the filter lets
through and that holds the cursor, and a read ends the stream only where there is
none. -/
theorem resumed_scan_full (parsed : RtsaParse) (iqStreamId : Nat) (subStreamId : Option Nat)
    (calls : List RtsaCall) (filtered : ∀ c ∈ calls, Filtered subStreamId c) (numSamples : Nat) :
    let s := (ofParse parsed iqStreamId).run decoder calls
    (∀ t, Scanning decoder numSamples subStreamId s t →
      (t.findChunk subStreamId).map Prod.fst = t.fullScan subStreamId) ∧
    ∀ s', s.readSamples decoder numSamples subStreamId = (.ok none, s') →
      s'.fullScan subStreamId = none := by
  intro s
  have same : SameFile (ofParse parsed iqStreamId) s := run_sameFile decoder _ calls
  cases chunks : parsed.sampChunkOffsets with
  | nil =>
      have empty : ∀ t, SameFile s t → t.sampChunkOffsets = [] := fun t later =>
        later.sampChunkOffsets.trans (same.sampChunkOffsets.trans chunks)
      refine ⟨fun t scanning => ?_, fun s' ended => ?_⟩
      · rw [fullScan, findChunk, empty t scanning.sameFile]
        simp only [List.zipIdx_nil, List.drop_nil, List.take_nil, List.append_nil, List.find?_nil,
          Option.map_none]
      · have later := readSamples_sameFile decoder s numSamples subStreamId
        rw [ended] at later
        rw [fullScan, empty s' later]
        rfl
  | cons first rest =>
      have standard : parsed.sampChunkOffsets ≠ [] := by
        rw [chunks]
        exact List.cons_ne_nil first rest
      have indexed := indexed_ofParse standard iqStreamId
      have resumes : s.Resumes subStreamId := (indexed.resumes rfl subStreamId).run filtered
      refine ⟨fun t scanning => (scanning.resumes resumes).findChunk_full, ?_⟩
      intro s' ended
      obtain ⟨t, scanning, ends⟩ :=
        readSamples_scanning decoder resumes.standard numSamples subStreamId
      rcases ends with ⟨missing, last⟩ | ⟨chunk, idx, found, read, served⟩
      · obtain rfl := (Prod.mk.inj (last.symm.trans ended)).2
        rw [← (scanning.resumes resumes).findChunk_full, missing]
        rfl
      · rw [ended] at served
        exact absurd rfl served

/-- The scan behind a read, a seek and another read, at the second chunk. -/
theorem resumed_scan_full_spectraFile :
    let calls := [.readSamples 1 none, .seekToSample 0, .readSamples 1 none]
    let s := (ofParse spectraFile 1).run rawDecoder calls
    (∀ c ∈ calls, Filtered none c) ∧ s.currentSampleIndex = 1 ∧
      (s.findChunk none).map Prod.fst = s.fullScan none := by
  have filtered : ∀ c ∈ [RtsaCall.readSamples 1 none, .seekToSample 0, .readSamples 1 none],
      Filtered none c := by
    simp [Filtered]
  refine ⟨filtered, by decide +kernel, ?_⟩
  exact (resumed_scan_full rawDecoder spectraFile 1 none _ filtered 1).1 _ .first

end RtsaSource

end SdrAaronia
