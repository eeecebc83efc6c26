import FeedAudit.Proofs.Ways

/-!
# Paths that spare each other

Writing to a path changes nothing but what stands at its place, and the directories that are made on
its way (`touched_writeBlock`). It *spares* another path if, for this reason, the other one stays as
it is for all who read it or write to it, whatever is written to the first: what is read is the same
(`readText_of_spared`), and so is whether a block can be written, and why not
(`writeBlock_of_spared`).
-/

namespace FeedAudit

namespace FileSystem

variable {fs fs' : FileSystem} {path : String}

/-! ## What writing changes -/

/-- What some paths can change: the files at their places, and directories that are made on their
ways where nothing stood. -/
structure Touched (paths : String → Prop) (fs fs' : FileSystem) : Prop where
  working : fs'.working = fs.working
  entry : ∀ l, (∀ path, paths path → fs.place path ≠ l) → fs'.entry? l = fs.entry? l ∨
    fs.entry? l = none ∧ fs'.entry? l = some .directory ∧ ∃ path, paths path ∧ l ∈ fs.way path

/-- Where nothing is changed, nothing is touched. -/
theorem Touched.refl (paths : String → Prop) (fs : FileSystem) : Touched paths fs fs :=
  ⟨rfl, fun _ _ => Or.inl rfl⟩

/-- What some paths touch, further paths touch too. -/
theorem Touched.mono {paths others : String → Prop} (htouched : Touched paths fs fs')
    (hsub : ∀ path, paths path → others path) : Touched others fs fs' := by
  refine ⟨htouched.working, fun l hl => ?_⟩
  rcases htouched.entry l fun path hpath => hl path (hsub path hpath) with
    hsame | ⟨hnone, hnew, path, hpath, hway⟩
  · exact Or.inl hsame
  · exact Or.inr ⟨hnone, hnew, path, hsub path hpath, hway⟩

/-- Two changes that some paths make, one after the other, are a change that they make. -/
theorem Touched.trans {paths : String → Prop} {fs'' : FileSystem}
    (hfirst : Touched paths fs fs') (hsecond : Touched paths fs' fs'') :
    Touched paths fs fs'' := by
  refine ⟨hsecond.working.trans hfirst.working, fun l hl => ?_⟩
  have hagain := hsecond.entry l
  rw [place_congr hfirst.working, way_congr hfirst.working] at hagain
  rcases hagain hl with hsame | ⟨hnone, hnew, hway⟩
  · rw [hsame]
    exact hfirst.entry l hl
  · rcases hfirst.entry l hl with hbefore | ⟨-, hdirectory, -⟩
    · exact Or.inr ⟨hbefore ▸ hnone, hnew, hway⟩
    · rw [hdirectory] at hnone
      cases hnone

/-- Whether or not a block can be written, nothing is changed but what its path can change. -/
theorem touched_writeBlock (path : String) (mode : WriteMode) (lines : List String) :
    Touched (· = path) fs (fs.writeBlock path mode lines).1 := by
  have hmade : MadeAt (fs.above path) fs (fs.ensureParent path).1 := madeAt_ensureParent path
  have hprepared : Touched (· = path) fs (fs.ensureParent path).1 :=
    ⟨hmade.working, fun l _ => (hmade.entry l).imp_right fun ⟨hnone, hnew, hl⟩ =>
      ⟨hnone, hnew, path, rfl, above_sublist.subset hl⟩⟩
  rw [writeBlock]
  rcases hparent : fs.ensureParent path with ⟨prepared, fault | done⟩
  · rwa [hparent] at hprepared
  · rw [hparent] at hprepared
    dsimp only
    rw [writeText]
    cases hlocate : prepared.locateForWriting path with
    | error fault => exact hprepared
    | ok l =>
      obtain ⟨hl, -⟩ := locateForWriting_ok hlocate
      refine hprepared.trans ⟨working_put l _, fun m hm => Or.inl (entry?_put_of_ne ?_ _)⟩
      rw [hl]
      exact (hm path rfl).symm

/-! ## Paths that spare each other -/

/-- Writing to a path spares another one: its place is not on the way of the other, and of the
directories that are made on its own way none stands at the place of the other. Where one of them
may stand on the way of the other, nothing stands behind it. -/
structure Spares (fs : FileSystem) (path other : String) : Prop where
  apart : fs.place path ∉ fs.way other
  target : fs.entry? (fs.place other) = none → fs.place other ∉ fs.way path
  beyond : (fs.way other).Pairwise fun l m =>
    l ∈ fs.way path → fs.entry? l = none → fs.entry? m = none

instance (fs : FileSystem) (path other : String) : Decidable (fs.Spares path other) :=
  decidable_of_iff (fs.place path ∉ fs.way other ∧
    (fs.entry? (fs.place other) = none → fs.place other ∉ fs.way path) ∧
    (fs.way other).Pairwise fun l m => l ∈ fs.way path → fs.entry? l = none → fs.entry? m = none)
    ⟨fun ⟨hapart, htarget, hbeyond⟩ => ⟨hapart, htarget, hbeyond⟩,
      fun ⟨hapart, htarget, hbeyond⟩ => ⟨hapart, htarget, hbeyond⟩⟩

/-- On the way of a path only directories are new, nothing is changed at its place, and nothing
stood behind what is new. -/
structure Spared (path : String) (fs fs' : FileSystem) : Prop where
  working : fs'.working = fs.working
  entry : ∀ l ∈ fs.way path, fs'.entry? l = fs.entry? l ∨
    fs.entry? l = none ∧ fs'.entry? l = some .directory
  target : fs'.entry? (fs.place path) = fs.entry? (fs.place path)
  beyond : (fs.way path).Pairwise fun l m => fs'.entry? l ≠ fs.entry? l → fs.entry? m = none

/-- What is written to paths that spare another one leaves it spared. -/
theorem Touched.spared {paths : String → Prop} (htouched : Touched paths fs fs')
    (hspares : ∀ other, paths other → fs.Spares other path) : Spared path fs fs' := by
  have hentry : ∀ l ∈ fs.way path, fs'.entry? l = fs.entry? l ∨
      fs.entry? l = none ∧ fs'.entry? l = some .directory ∧
        ∃ other, paths other ∧ l ∈ fs.way other := by
    intro l hl
    refine htouched.entry l fun other hother hplace => ?_
    exact (hspares other hother).apart (hplace ▸ hl)
  refine ⟨htouched.working, fun l hl => ?_, ?_, ?_⟩
  · exact (hentry l hl).imp_right fun ⟨hnone, hnew, _⟩ => ⟨hnone, hnew⟩
  · rcases hentry _ place_mem_way with hsame | ⟨hnone, -, other, hother, hway⟩
    · exact hsame
    · exact absurd hway ((hspares other hother).target hnone)
  · rw [List.pairwise_iff_forall_sublist]
    intro l m hsub hchanged
    have hl : l ∈ fs.way path := hsub.subset List.mem_cons_self
    rcases hentry l hl with hsame | ⟨hnone, -, other, hother, hway⟩
    · exact absurd hsame hchanged
    · exact List.pairwise_iff_forall_sublist.mp (hspares other hother).beyond hsub hway hnone

namespace Spared

/-- Nothing stands at the place of a path if something on its way is new. -/
theorem place_eq_none (hspared : Spared path fs fs') {l : Location} (hl : l ∈ fs.way path)
    (hchanged : fs'.entry? l ≠ fs.entry? l) : fs.entry? (fs.place path) = none := by
  have hbeyond := hspared.beyond
  rw [way_eq, List.mem_append, List.mem_singleton] at hl
  rw [way_eq, List.pairwise_append] at hbeyond
  rcases hl with hbefore | rfl
  · exact hbeyond.2.2 l hbefore _ (List.mem_singleton_self _) hchanged
  · exact absurd hspared.target hchanged

/-- No file on the way of a path that is spared is changed. -/
theorem file?_eq (hspared : Spared path fs fs') {l : Location} (hl : l ∈ fs.way path) :
    fs'.file? l = fs.file? l := by
  rw [file?, file?]
  rcases hspared.entry l hl with hsame | ⟨hnone, hnew⟩
  · rw [hsame]
  · rw [hnone, hnew]

/-- A path that is spared starts where it started before. -/
theorem origin_eq (hspared : Spared path fs fs') : fs'.origin path = fs.origin path := by
  rw [FileSystem.origin, FileSystem.origin, hspared.working]

/-- Where a path starts there still is a directory. -/
theorem directory_origin (hspared : Spared path fs fs')
    (horigin : fs.entry? (fs.origin path) = some .directory) :
    fs'.entry? (fs'.origin path) = some .directory := by
  rw [hspared.origin_eq]
  rcases hspared.entry _ (Location.start_mem_visited _ _) with hsame | ⟨-, hnew⟩
  · rw [hsame, horigin]
  · exact hnew

/-- A walk over a part of the way stops where it stopped, or it now goes on where it found nothing,
and finds directories only. -/
theorem hindrance_eq (hspared : Spared path fs fs') {ls : List Location}
    (hls : ls.Sublist (fs.way path)) :
    fs'.hindrance ls = fs.hindrance ls ∨
      fs.hindrance ls = some .notFound ∧ fs'.hindrance ls = none ∧
        ∃ l ∈ ls, fs'.entry? l ≠ fs.entry? l := by
  induction ls with
  | nil => exact Or.inl rfl
  | cons l rest ih =>
    have hl : l ∈ fs.way path := hls.subset List.mem_cons_self
    have hrest : rest.Sublist (fs.way path) := (List.sublist_cons_self l rest).trans hls
    rw [hindrance_cons, hindrance_cons, List.exists_mem_cons_iff]
    rcases hspared.entry l hl with hsame | ⟨hnone, hnew⟩
    · rw [hsame]
      cases fs.entry? l with
      | none => exact Or.inl rfl
      | some e =>
        cases e with
        | file content => exact Or.inl rfl
        | directory =>
          exact (ih hrest).imp_right fun ⟨hbefore, hnow, hnew⟩ => ⟨hbefore, hnow, Or.inr hnew⟩
    · have hchanged : fs'.entry? l ≠ fs.entry? l := by
        rw [hnone, hnew]
        exact Option.some_ne_none _
      -- Nothing stood behind what is new, so the walk went no further before, and it meets no file
      -- now.
      have hempty : ∀ m ∈ rest, fs.file? m = none := by
        intro m hm
        have hpair := (List.pairwise_cons.mp (hspared.beyond.sublist hls)).1 m hm hchanged
        rw [file?, hpair]
      have hempty' : ∀ m ∈ rest, fs'.file? m = none := fun m hm => by
        rw [hspared.file?_eq (hrest.subset hm), hempty m hm]
      rw [hnone, hnew]
      dsimp only
      cases hgo : fs'.hindrance rest with
      | none => exact Or.inr ⟨rfl, rfl, Or.inl (Option.some_ne_none _)⟩
      | some fault =>
        rcases hindrance_eq_some hgo with rfl | rfl
        · exact Or.inl rfl
        · exact absurd hempty' (file_of_hindrance hgo)

/-- What comes of making the directories of a path stays the same. -/
theorem making_above (hspared : Spared path fs fs') :
    fs'.making (fs.above path) = fs.making (fs.above path) := by
  have hfiles : (∀ l ∈ fs.above path, fs'.file? l = none) ↔
      ∀ l ∈ fs.above path, fs.file? l = none :=
    forall₂_congr fun l hl => by rw [hspared.file?_eq (above_sublist.subset hl)]
  have hstopped : fs'.hindrance (fs.above path).dropLast = some .notADirectory ↔
      fs.hindrance (fs.above path).dropLast = some .notADirectory := by
    rcases hspared.hindrance_eq ((List.dropLast_sublist _).trans above_sublist) with
      hsame | ⟨hbefore, hnow, -⟩
    · rw [hsame]
    · rw [hbefore, hnow]
      exact ⟨nofun, nofun⟩
  rw [making, making]
  simp only [hfiles, hstopped]

end Spared

/-! ## Writing and reading -/

/-- Whether a block can be written to a spared path, and why not, stays the same. -/
theorem writeBlock_of_spared (hspared : Spared path fs fs')
    (horigin : fs.entry? (fs.origin path) = some .directory) (mode mode' : WriteMode)
    (lines lines' : List String) :
    (fs'.writeBlock path mode' lines').2 = (fs.writeBlock path mode lines).2 := by
  have horigin' := hspared.directory_origin horigin
  have hparent : (fs'.ensureParent path).2 = (fs.ensureParent path).2 := by
    rw [ensureParent_eq horigin, ensureParent_eq horigin', above_congr hspared.working,
      hspared.making_above]
  rw [writeBlock_snd, writeBlock_snd, hparent]
  cases hmake : (fs.ensureParent path).2 with
  | error fault => rfl
  | ok done =>
    rw [hmake] at hparent
    have hworking : (fs'.ensureParent path).1.working = (fs.ensureParent path).1.working := by
      rw [(madeAt_ensureParent path).working, (madeAt_ensureParent path).working,
        hspared.working]
    have hway : (fs.ensureParent path).1.way path = fs.way path := by
      rw [way_congr (madeAt_ensureParent path).working]
    have hsame : ∀ l ∈ (fs.ensureParent path).1.way path,
        entry? (fs'.ensureParent path).1 l = entry? (fs.ensureParent path).1 l := by
      intro l hl
      rw [hway] at hl
      have hl' : l ∈ fs'.way path := by
        rwa [way_congr hspared.working]
      rw [entry?_ensureParent horigin hmake hl, entry?_ensureParent horigin' hparent hl',
        above_congr hspared.working, place_congr hspared.working, hspared.target]
    rw [locateForWriting_congr hworking hsame]

/-- What is read from a spared path stays the same. -/
theorem readText_of_spared (hspared : Spared path fs fs') :
    fs'.readText path = fs.readText path := by
  have hbytes : fs'.readBytes path = fs.readBytes path := by
    by_cases hpath : path = ""
    · rw [readBytes, readBytes, locate, locate, if_pos hpath, if_pos hpath]
    · have hpart : (if Path.endsInSlash path then fs.way path else
          (fs.way path).dropLast).Sublist (fs.way path) := by
        split
        · exact List.Sublist.refl _
        · exact List.dropLast_sublist _
      rw [readBytes_eq hpath, readBytes_eq hpath, way_congr hspared.working,
        place_congr hspared.working, hspared.target]
      rcases hspared.hindrance_eq hpart with hsame | ⟨hbefore, hnow, l, hl, hchanged⟩
      · rw [hsame]
      · rw [hbefore, hnow, hspared.place_eq_none (hpart.subset hl) hchanged]
  rw [readText, readText, hbytes]

end FileSystem

end FeedAudit
