import FlowTally.Proofs.Export.RoundTrip

/-!
# Exports that fail

`run_failed`: at whichever action an export fails, the directory is left without
a manifest, or with the earlier export untouched. The older manifest is removed
before the first file is moved and the new one is moved after the last, so
between the two, where the files can be those of either export, there is none:
`Unpublished` holds of every tree on the way (`Unpublished.step`).

The one condition is on directories without a manifest: that making the
directory does not put something in the place of the manifest, as the path
`out/manifest.json/..` does.
-/

namespace FlowTally.Export

open FileTree (Keeps Placed Plain join)

variable {t t' files : FileTree} {directory stagingPath : String} {output staging : Place}
  {action : Action} {actions : List Action} {target : ExportTarget} {stamp : Stamp}
  {p : ExportParts} {fails : Nat → Option IoFault} {e : RunError}

/-- No manifest is there, and making the directory does not put one there. -/
def Vacant (files : FileTree) (directory : String) : Prop :=
  files.exists? (join directory manifestFile) = false ∧
    ∀ made, files.makeDirectories directory = .ok made →
      made.exists? (join directory manifestFile) = false

/-- There is no manifest, and loading says so. -/
def Withdrawn (files : FileTree) (directory : String) : Prop :=
  files.exists? (join directory manifestFile) = false ∧
    ∃ text, load files directory = .error (.consistency text)

theorem withdrawn_of_exists (h : files.exists? (join directory manifestFile) = false) :
    Withdrawn files directory := by
  refine ⟨h, s!"{directory} has no {manifestFile}", ?_⟩
  simp [load, readManifest, h, Except.bind]

-- ---------------------------------------------------------------------------
-- Between the removal of the old manifest and the new one
-- ---------------------------------------------------------------------------

/-- The directories stand, and there is no manifest, unless the staging directory has its place. -/
structure Unpublished (t : FileTree) (directory stagingPath : String) (output staging : Place) :
    Prop where
  staged : Staged t directory stagingPath output staging
  place : t.place stagingPath = .ok staging
  manifest : staging = output ++ [manifestFile] ∨ t.entry? (output ++ [manifestFile]) = none

inductive Quiet (directory stagingPath : String) : Action → Prop
  | create {name : String} (hn : Plain name) :
      Quiet directory stagingPath (.create (join stagingPath name))
  | write {name : String} (hn : Plain name) (content : Content) :
      Quiet directory stagingPath (.write (join stagingPath name) content)
  | flush (path : String) : Quiet directory stagingPath (.flush path)
  | sync (path : String) : Quiet directory stagingPath (.sync path)
  | publish {name : String} (hn : Plain name) (hne : name ≠ manifestFile) :
      Quiet directory stagingPath (.publish (join stagingPath name) (join directory name))

theorem Unpublished.keeps (h : Unpublished t directory stagingPath output staging)
    (hk : t.Keeps t')
    (hsame : t'.entry? (output ++ [manifestFile]) = t.entry? (output ++ [manifestFile])) :
    Unpublished t' directory stagingPath output staging :=
  ⟨h.staged.keeps hk, FileTree.place_keeps hk h.place, hsame ▸ h.manifest⟩

theorem Unpublished.step (h : Unpublished t directory stagingPath output staging)
    (ha : Quiet directory stagingPath action) (hok : action.apply t = .ok t') :
    Unpublished t' directory stagingPath output staging := by
  cases ha with
  | create hn =>
    obtain ⟨hk, -, hrest⟩ := write_ok h.staged.atStaging hn hok
    exact h.keeps hk (hrest _ (h.staged.ne _ _))
  | write hn content =>
    obtain ⟨hk, -, hrest⟩ := write_ok h.staged.atStaging hn hok
    exact h.keeps hk (hrest _ (h.staged.ne _ _))
  | flush path =>
    cases hok
    exact h
  | sync path =>
    cases hok
    exact h
  | publish hn hne =>
    obtain ⟨place, _, entry, hplace, hentry, -⟩ := FileTree.rename_ok hok
    obtain rfl : staging ++ [_] = place :=
      Except.ok.inj ((h.staged.atStaging.place_join hn).symm.trans hplace)
    obtain ⟨hk, -, hrest⟩ := rename_ok h.staged hn hentry hok
    exact h.keeps hk (hrest _ (by simpa using hne.symm) (h.staged.not_above _ _))

theorem Unpublished.applyAll (h : Unpublished t directory stagingPath output staging)
    (hquiet : ∀ action ∈ actions, Quiet directory stagingPath action)
    (hok : applyAll t actions = .ok t') : Unpublished t' directory stagingPath output staging := by
  induction actions generalizing t with
  | nil =>
    cases hok
    exact h
  | cons action actions ih =>
    obtain ⟨ha, hquiet⟩ := List.forall_mem_cons.mp hquiet
    obtain ⟨u, hu, hok⟩ := bind_ok.mp ((applyAll_cons action).symm.trans hok)
    exact ih (h.step ha hu) hquiet hok

theorem quiet_stagedActions (ha : action ∈ (stagedActions target stamp p).dropLast) :
    Quiet target.directory (join target.directory stamp.staging) action := by
  have hwrite {name : String} {content : List Char} (hn : Plain name)
      (ha : action ∈ writeActions (join (join target.directory stamp.staging) name) content) :
      Quiet target.directory (join target.directory stamp.staging) action := by
    simp only [writeActions, List.mem_cons, List.not_mem_nil, or_false] at ha
    rcases ha with rfl | rfl | rfl | rfl
    · exact .create hn
    · exact .write hn _
    · exact .flush _
    · exact .sync _
  have hname {f : String × List Char} (hf : f ∈ artifacts target.labelStyle p) :
      Plain f.1 ∧ f.1 ≠ manifestFile := by
    have hmem : f.1 ∈ [matrixFile, vocabularyFile, labelsFile] := List.mem_map_of_mem hf
    revert hmem
    generalize f.1 = name
    have hall : ∀ n ∈ [matrixFile, vocabularyFile, labelsFile], Plain n ∧ n ≠ manifestFile := by
      decide
    exact hall name
  rw [stagedActions, List.dropLast_concat] at ha
  rcases List.mem_append.mp ha with ha | ha
  · rcases List.mem_append.mp ha with ha | ha
    · obtain ⟨f, hf, ha⟩ := List.mem_flatMap.mp ha
      exact hwrite (hname hf).1 ha
    · obtain ⟨f, hf, rfl⟩ := List.mem_map.mp ha
      exact .publish (hname hf).1 (hname hf).2
  · exact hwrite (by decide) ha

theorem Unpublished.withdrawn
    (h : Unpublished t target.directory (join target.directory stamp.staging) output staging) :
    Withdrawn (removeStaging target stamp t) target.directory := by
  have hremove : removeStaging target stamp t = t.erase staging := by
    have hentry := h.staged.atStaging.solid.entry_eq
    simp [removeStaging, FileTree.removeAll, h.place, hentry, Except.bind, Except.toOption]
  rw [hremove]
  have hmanifest := h.staged.atOutput.place_join (show Plain manifestFile by decide)
  refine withdrawn_of_exists (FileTree.exists?_erase_eq_false hmanifest ?_)
  rcases h.manifest with heq | hnone
  · -- What stands in the place of the manifest is the staging directory itself.
    exact FileTree.entry?_erase_of_above (by simp) (heq ▸ List.prefix_refl _)
  · exact FileTree.entry?_erase_eq_none hnone

-- ---------------------------------------------------------------------------
-- Where a failed export stops
-- ---------------------------------------------------------------------------

theorem prefix_dropLast {xs ys zs : List α} {a : α} (h : zs = xs ++ a :: ys) :
    xs <+: zs.dropLast := by
  rw [h, List.dropLast_append_cons]
  exact List.prefix_append ..

theorem cleared_ok (ho : t.Placed target.directory output)
    (h : applyAll t (if t.exists? (join target.directory manifestFile) then
      [.removeManifest (join target.directory manifestFile)] else []) = .ok t') :
    t'.Placed target.directory output ∧ t'.entry? (output ++ [manifestFile]) = none := by
  have hmanifest := ho.place_join (show Plain manifestFile by decide)
  have hexists := FileTree.exists?_of_place hmanifest
  split at h
  · rw [applyAll_singleton] at h
    obtain ⟨hk, place, hplace, rfl⟩ := FileTree.removeFile_ok h
    obtain rfl : output ++ [manifestFile] = place := Except.ok.inj (hmanifest.symm.trans hplace)
    exact ⟨ho.keeps hk, FileTree.entry?_erase_of_above (by simp) (List.prefix_refl _)⟩
  · rename_i hno
    obtain rfl : t = t' := Except.ok.inj h
    exact ⟨ho, by simpa [hexists] using hno⟩

theorem withdrawn_of_entry (ho : t.Placed directory output)
    (h : t.entry? (output ++ [manifestFile]) = none) : Withdrawn t directory := by
  refine withdrawn_of_exists ?_
  rw [FileTree.exists?_of_place (ho.place_join (by decide)), h]
  rfl

theorem unpublished_makeDirectory (ho : t.Placed directory output)
    (hnone : t.entry? (output ++ [manifestFile]) = none)
    (h : t.makeDirectory stagingPath = .ok t') :
    ∃ staging, Unpublished t' directory stagingPath output staging := by
  obtain ⟨staging, hplace, hk, hplaced, hfree, rfl⟩ := FileTree.makeDirectory_ok h
  refine ⟨staging, ⟨ho.keeps hk, hplaced, ho.solid.not_above hfree⟩,
    FileTree.place_keeps hk hplace, ?_⟩
  by_cases heq : staging = output ++ [manifestFile]
  · exact .inl heq
  · exact .inr (by rw [FileTree.entry?_set_of_ne (Ne.symm heq), hnone])

theorem prepareActions_stops (ho : t.Placed target.directory output)
    (hfront : actions <+: (prepareActions target stamp
      (t.exists? (join target.directory manifestFile))).dropLast)
    (hok : applyAll t actions = .ok t') :
    (t.exists? (join target.directory manifestFile) = true ∧ t' = t) ∨
      Withdrawn t' target.directory := by
  rw [prepareActions, List.dropLast_concat] at hfront
  by_cases hall : actions = if t.exists? (join target.directory manifestFile) then
      [.removeManifest (join target.directory manifestFile)] else []
  · obtain ⟨ho', hnone⟩ := cleared_ok ho (hall ▸ hok)
    exact .inr (withdrawn_of_entry ho' hnone)
  · -- Short of all actions there are none, and one was to come: the removal.
    split at hfront
    · rename_i hexists
      rcases List.prefix_cons_iff.mp hfront with rfl | ⟨more, rfl, hmore⟩
      · exact .inl ⟨hexists, (Except.ok.inj hok).symm⟩
      · obtain rfl := List.prefix_nil.mp hmore
        exact absurd (if_pos hexists).symm hall
    · rename_i hno
      exact absurd ((List.prefix_nil.mp hfront).trans (if_neg hno).symm) hall

theorem prepareActions_unpublished (ho : t.Placed target.directory output)
    (hok : applyAll t (prepareActions target stamp
      (t.exists? (join target.directory manifestFile))) = .ok t') :
    ∃ staging, Unpublished t' target.directory (join target.directory stamp.staging) output
      staging := by
  obtain ⟨u, hclear, hmake⟩ := (applyAll_append _ _).mp hok
  obtain ⟨ho', hnone⟩ := cleared_ok ho hclear
  rw [applyAll_singleton] at hmake
  exact unpublished_makeDirectory ho' hnone hmake

/-- A failed export changes nothing, or made the directory, or has withdrawn what was there. -/
theorem run_stops (herror : (run fails files target stamp p).result = .error e) :
    (run fails files target stamp p).files = files ∨
      (∃ made, files.makeDirectories target.directory = .ok made ∧
        made.exists? (join target.directory manifestFile) = true ∧
        (run fails files target stamp p).files = made) ∨
      Withdrawn (run fails files target stamp p).files target.directory := by
  unfold run at herror ⊢
  cases hcheck : checkAlignment p with
  | error e => exact .inl rfl
  | ok _ =>
    rw [hcheck] at herror
    simp only at herror ⊢
    rcases perform_eq fails 0 files [.makeOutput target.directory] with
      ⟨applied, action, rest, fault, u, hperform, hactions, hu⟩ | ⟨made, hperform, hmake⟩
    · rw [hperform]
      have hfront := prefix_dropLast hactions
      obtain rfl : applied = [] := List.prefix_nil.mp hfront
      cases hu
      exact .inl rfl
    · rw [hperform] at herror ⊢
      simp only at herror ⊢
      rw [applyAll_singleton] at hmake
      obtain ⟨output, ho⟩ := FileTree.makeDirectories_ok hmake
      refine .inr ?_
      rcases perform_eq fails 1 made (prepareActions target stamp
          (made.exists? (join target.directory manifestFile))) with
        ⟨applied, action, rest, fault, u, hperform, hactions, hu⟩ | ⟨prepared, hperform, hprepare⟩
      · rw [hperform]
        exact (prepareActions_stops ho (prefix_dropLast hactions) hu).imp_left fun ⟨hexists, heq⟩ =>
          ⟨made, hmake, hexists, heq⟩
      · rw [hperform] at herror ⊢
        simp only at herror ⊢
        generalize 1 + (prepareActions target stamp
          (made.exists? (join target.directory manifestFile))).length = number at herror ⊢
        rcases perform_eq fails number prepared (stagedActions target stamp p) with
          ⟨applied, action, rest, fault, u, hperform, hactions, hu⟩ | ⟨done, hperform, -⟩
        · rw [hperform]
          obtain ⟨staging, hunpublished⟩ := prepareActions_unpublished ho hprepare
          have hquiet : ∀ action ∈ applied, Quiet target.directory _ action := fun action ha =>
            quiet_stagedActions ((prefix_dropLast hactions).subset ha)
          exact .inr (hunpublished.applyAll hquiet hu).withdrawn
        · rw [hperform] at herror
          cases herror

-- ---------------------------------------------------------------------------
-- Completed exports
-- ---------------------------------------------------------------------------

structure Completed (directory : String) where
  fails : Nat → Option IoFault
  before : FileTree
  style : LabelStyle
  stamp : Stamp
  parts : ExportParts
  matrix : parts.matrix.Reached
  countable : Countable parts
  stampValid : ValidStamp stamp
  done : (run fails before ⟨directory, style⟩ stamp parts).result = .ok (manifest stamp style parts)

namespace Completed

def after (c : Completed directory) : FileTree :=
  (run c.fails c.before ⟨directory, c.style⟩ c.stamp c.parts).files

def artifacts (c : Completed directory) : Artifacts :=
  ⟨manifest c.stamp c.style c.parts, table c.parts, c.parts.vocabulary.keys,
    c.parts.labels.entries⟩

def Untouched (c : Completed directory) (files : FileTree) : Prop :=
  ∀ name ∈ [matrixFile, vocabularyFile, labelsFile, manifestFile],
    files.read (join directory name) = c.after.read (join directory name)

variable {c : Completed directory}

theorem checked (c : Completed directory) : checkAlignment c.parts = .ok () :=
  (read_of_ok c.done).1

theorem read_after (c : Completed directory) :
    ∀ f ∈ published c.stamp c.style c.parts,
      c.after.read (join directory f.1) = .ok (.ofChars f.2) :=
  (read_of_ok c.done).2

theorem Untouched.read (h : c.Untouched files) :
    ∀ f ∈ published c.stamp c.style c.parts,
      files.read (join directory f.1) = .ok (.ofChars f.2) := fun f hf =>
  (h f.1 (List.mem_map_of_mem hf)).trans (c.read_after f hf)

theorem Untouched.load (h : c.Untouched files) : load files directory = .ok c.artifacts :=
  load_of_published c.matrix c.countable c.stampValid c.checked h.read

theorem Untouched.grows (h : c.Untouched files) (hg : files.Grows t) : c.Untouched t := by
  intro name hname
  obtain ⟨f, hf, rfl⟩ := List.mem_map.mp
    (show name ∈ (published c.stamp c.style c.parts).map (·.1) from hname)
  rw [hg.read (h.read f hf), c.read_after f hf]

end Completed

/-- A failed export leaves no manifest behind, or the earlier export as it was. -/
theorem run_failed (fails : Nat → Option IoFault) (files : FileTree) (target : ExportTarget)
    (stamp : Stamp) (p : ExportParts) :
    (∀ e, checkAlignment p = .error e →
      (run fails files target stamp p).result = .error e ∧
        (run fails files target stamp p).files = files) ∧
      ∀ e, (run fails files target stamp p).result = .error e →
        (Vacant files target.directory →
          Withdrawn (run fails files target stamp p).files target.directory) ∧
        ∀ c : Completed target.directory, c.Untouched files →
          Withdrawn (run fails files target stamp p).files target.directory ∨
            (c.Untouched (run fails files target stamp p).files ∧
              load (run fails files target stamp p).files target.directory = .ok c.artifacts) := by
  refine ⟨fun e hcheck => by simp [run, hcheck], fun e herror => ⟨fun hvacant => ?_, fun c hc => ?_⟩⟩
  · rcases run_stops herror with hsame | ⟨made, hmake, hexists, -⟩ | hwithdrawn
    · rw [hsame]
      exact withdrawn_of_exists hvacant.1
    · rw [hvacant.2 made hmake] at hexists
      cases hexists
    · exact hwithdrawn
  · rcases run_stops herror with hsame | ⟨made, hmake, -, hsame⟩ | hwithdrawn
    · rw [hsame]
      exact .inr ⟨hc, hc.load⟩
    · have hmade := hc.grows (FileTree.grows_makeAll hmake)
      rw [hsame]
      exact .inr ⟨hmade, hmade.load⟩
    · exact .inl hwithdrawn

def parentTarget : ExportTarget := ⟨"out/manifest.json/..", .numeric⟩

/-- There was no manifest, the export fails, and loading does not say that there is none. -/
theorem run_failed_parentTarget :
    FileTree.exists? {} (join parentTarget.directory manifestFile) = false ∧
      (run noFailure {} parentTarget awkwardStamp {}).result = .error (.publish
        "remove stale manifest out/manifest.json/../manifest.json: Is a directory (os error 21)") ∧
      ¬ (Withdrawn (run noFailure {} parentTarget awkwardStamp {}).files parentTarget.directory ∨
        ∃ artifacts, load (run noFailure {} parentTarget awkwardStamp {}).files
          parentTarget.directory = .ok artifacts) := by
  have hload : load (run noFailure {} parentTarget awkwardStamp {}).files parentTarget.directory =
      .error (.parse "out/manifest.json/../manifest.json: not a manifest") := by decide +kernel
  refine ⟨by decide +kernel, by decide +kernel, ?_⟩
  rw [Withdrawn, hload]
  rintro (⟨-, text, h⟩ | ⟨artifacts, h⟩)
  · cases h
  · cases h

def earlierExport : Completed "out" where
  fails := noFailure
  before := awkwardFiles
  style := .boolean
  stamp := awkwardStamp
  parts := awkwardParts
  matrix := .openRow 1 (.increment 0 0 3 .empty)
  countable := ⟨by decide, by decide, by decide⟩
  stampValid := ⟨by decide, by decide⟩
  done := by decide +kernel

def failsAt (number : Nat) (n : Nat) : Option IoFault :=
  if n = number then some (.other "No space left on device (os error 28)") else none

theorem run_failed_earlierExport :
    (run (failsAt 16) earlierExport.after awkwardTarget awkwardStamp {}).result = .error (.publish
        "publish artifact out/graphs.txt: No space left on device (os error 28)") ∧
      earlierExport.Untouched earlierExport.after ∧
      Withdrawn (run (failsAt 16) earlierExport.after awkwardTarget awkwardStamp {}).files "out" ∧
      (run (failsAt 5) {} awkwardTarget awkwardStamp {}).result = .error (.publish
        "sync out/.export-1/features.mtx: No space left on device (os error 28)") ∧
      Vacant {} "out" ∧
      Withdrawn (run (failsAt 5) {} awkwardTarget awkwardStamp {}).files "out" := by
  have hmoved : (run (failsAt 16) earlierExport.after awkwardTarget awkwardStamp {}).result =
      .error (.publish "publish artifact out/graphs.txt: No space left on device (os error 28)") := by
    decide +kernel
  have hwritten : (run (failsAt 5) {} awkwardTarget awkwardStamp {}).result = .error (.publish
      "sync out/.export-1/features.mtx: No space left on device (os error 28)") := by decide +kernel
  have huntouched : earlierExport.Untouched earlierExport.after := fun _ _ => rfl
  have hreplaced : ¬ earlierExport.Untouched
      (run (failsAt 16) earlierExport.after awkwardTarget awkwardStamp {}).files := by
    intro h
    have hread := h matrixFile (List.mem_cons_self ..)
    revert hread
    decide +kernel
  have hvacant : Vacant {} "out" := by
    refine ⟨by decide +kernel, fun made hmake => ?_⟩
    have hmade : FileTree.makeDirectories {} "out" = .ok ⟨[(["out"], .directory)]⟩ := by
      decide +kernel
    obtain rfl := Except.ok.inj (hmade.symm.trans hmake)
    decide +kernel
  have hearlier := ((run_failed (failsAt 16) earlierExport.after awkwardTarget awkwardStamp {}).2 _
    hmoved).2 earlierExport huntouched
  have hnew := ((run_failed (failsAt 5) {} awkwardTarget awkwardStamp {}).2 _ hwritten).1 hvacant
  exact ⟨hmoved, huntouched, hearlier.resolve_right fun h => hreplaced h.1, hwritten, hvacant, hnew⟩

end FlowTally.Export
