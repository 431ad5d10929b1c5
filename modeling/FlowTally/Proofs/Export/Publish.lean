import FlowTally.Export.Load
import FlowTally.Proofs.Files.Operations

/-!
# What an export leaves behind

The files of an export are written in the staging directory and moved out of
it one by one. The staging directory was not there before, so it lies neither
above the output directory nor in the place of a published file, and its
removal takes nothing of what was published. `read_run`: unless an action
fails, every file of the export is in its place with its content afterwards.
-/

namespace FlowTally.Export

open FileTree (Keeps Placed Plain join)

variable {t t' : FileTree} {directory name : String} {content : List Char}
  {place output staging : Place} {actions : List Action} {files : List (String × List Char)}
  {target : ExportTarget} {stamp : Stamp} {p : ExportParts} {fails : Nat → Option IoFault}

-- ---------------------------------------------------------------------------
-- Actions in sequence
-- ---------------------------------------------------------------------------

def applyAll (t : FileTree) (actions : List Action) : Except IoFault FileTree :=
  actions.foldlM Action.apply t

theorem applyAll_cons (action : Action) :
    applyAll t (action :: actions) = (action.apply t).bind fun u => applyAll u actions := by
  rw [applyAll, List.foldlM_cons]
  rfl

theorem applyAll_singleton (action : Action) : applyAll t [action] = action.apply t := by
  rw [applyAll_cons]
  cases action.apply t with
  | error fault => rfl
  | ok u => rfl

theorem applyAll_append (xs ys : List Action) :
    applyAll t (xs ++ ys) = .ok t' ↔ ∃ u, applyAll t xs = .ok u ∧ applyAll u ys = .ok t' := by
  rw [applyAll, List.foldlM_append]
  exact bind_ok

/-- Either an action fails, and those before it are applied, or all are. -/
theorem perform_eq (fails : Nat → Option IoFault) (number : Nat) (t : FileTree)
    (actions : List Action) :
    (∃ applied action rest fault u,
      perform fails number t actions = (.error (Action.failure action fault), u) ∧
      actions = applied ++ action :: rest ∧ applyAll t applied = .ok u) ∨
      ∃ t', perform fails number t actions = (.ok (), t') ∧ applyAll t actions = .ok t' := by
  induction actions generalizing number t with
  | nil => exact .inr ⟨t, rfl, rfl⟩
  | cons action actions ih =>
    rw [perform]
    split
    · rename_i fault hf
      exact .inl ⟨[], action, actions, fault, t, rfl, rfl, rfl⟩
    · split
      · rename_i fault hf
        exact .inl ⟨[], action, actions, fault, t, rfl, rfl, rfl⟩
      · rename_i u hu
        have hcons (xs : List Action) : applyAll t (action :: xs) = applyAll u xs := by
          rw [applyAll_cons, hu]
          rfl
        rcases ih (number + 1) u with ⟨applied, failed, rest, fault, v, hp, rfl, hv⟩ | ⟨t', hp, ht⟩
        · exact .inl ⟨action :: applied, failed, rest, fault, v, hp, rfl, (hcons applied).trans hv⟩
        · exact .inr ⟨t', hp, (hcons actions).trans ht⟩

-- ---------------------------------------------------------------------------
-- Writing
-- ---------------------------------------------------------------------------

theorem write_ok (hd : t.Placed directory place) (hn : Plain name) {content : Content}
    (h : t.write (join directory name) content = .ok t') :
    t.Keeps t' ∧ t'.entry? (place ++ [name]) = some (.file content) ∧
      ∀ q, q ≠ place ++ [name] → t'.entry? q = t.entry? q := by
  obtain ⟨r, hr, hdir, rfl⟩ := FileTree.put_ok h
  obtain rfl : place ++ [name] = r := Except.ok.inj ((hd.place_join hn).symm.trans hr)
  exact ⟨FileTree.keeps_set hdir, FileTree.entry?_set_self (by simp), fun q hq =>
    FileTree.entry?_set_of_ne hq⟩

theorem writeActions_ok (hd : t.Placed directory place) (hn : Plain name)
    (h : applyAll t (writeActions (join directory name) content) = .ok t') :
    t.Keeps t' ∧ t'.entry? (place ++ [name]) = some (.file (.ofChars content)) ∧
      ∀ q, q ≠ place ++ [name] → t'.entry? q = t.entry? q := by
  rw [writeActions, applyAll_cons] at h
  obtain ⟨u, hu, h⟩ := bind_ok.mp h
  rw [applyAll_cons] at h
  obtain ⟨v, hv, h⟩ := bind_ok.mp h
  obtain rfl : v = t' := Except.ok.inj h
  obtain ⟨hku, -, hrest⟩ := write_ok hd hn hu
  obtain ⟨hkv, hfile, hrest'⟩ := write_ok (hd.keeps hku) hn hv
  exact ⟨hku.trans hkv, hfile, fun q hq => (hrest' q hq).trans (hrest q hq)⟩

theorem writeFiles_ok (hd : t.Placed directory place) (hplain : ∀ f ∈ files, Plain f.1)
    (hnodup : (files.map (·.1)).Nodup)
    (h : applyAll t (files.flatMap fun f => writeActions (join directory f.1) f.2) = .ok t') :
    t.Keeps t' ∧ (∀ f ∈ files, t'.entry? (place ++ [f.1]) = some (.file (.ofChars f.2))) ∧
      ∀ q, (∀ f ∈ files, q ≠ place ++ [f.1]) → t'.entry? q = t.entry? q := by
  induction files generalizing t with
  | nil =>
    obtain rfl : t = t' := Except.ok.inj h
    exact ⟨Keeps.refl t, by simp, fun _ _ => rfl⟩
  | cons f files ih =>
    obtain ⟨hf, hfiles⟩ := List.forall_mem_cons.mp hplain
    obtain ⟨hnew, hnodup⟩ := List.nodup_cons.mp hnodup
    rw [List.flatMap_cons, applyAll_append] at h
    obtain ⟨u, hu, h⟩ := h
    obtain ⟨hku, hfile, hrest⟩ := writeActions_ok hd hf hu
    obtain ⟨hk, hwritten, hrest'⟩ := ih (hd.keeps hku) hfiles hnodup h
    refine ⟨hku.trans hk, ?_, ?_⟩
    · intro g hg
      rcases List.mem_cons.mp hg with rfl | hg
      · rw [hrest', hfile]
        intro other ho heq
        exact hnew (List.mem_map.mpr ⟨other, ho, by simpa using heq.symm⟩)
      · exact hwritten g hg
    · intro q hq
      obtain ⟨hqf, hq⟩ := List.forall_mem_cons.mp hq
      rw [hrest' q hq, hrest q hqf]

-- ---------------------------------------------------------------------------
-- Publishing
-- ---------------------------------------------------------------------------

/-- Output and staging directory are there, the staging directory not above the output. -/
structure Staged (t : FileTree) (directory stagingPath : String) (output staging : Place) :
    Prop where
  atOutput : t.Placed directory output
  atStaging : t.Placed stagingPath staging
  apart : ¬ staging <+: output

variable {stagingPath : String}

theorem Staged.keeps (h : Staged t directory stagingPath output staging) (hk : t.Keeps t') :
    Staged t' directory stagingPath output staging :=
  ⟨h.atOutput.keeps hk, h.atStaging.keeps hk, h.apart⟩

theorem Staged.not_above (h : Staged t directory stagingPath output staging) (a b : String) :
    ¬ staging ++ [a] <+: output ++ [b] := by
  intro hp
  rcases List.prefix_concat_iff.mp hp with heq | hp
  · obtain ⟨rfl, -⟩ := List.append_inj' heq rfl
    exact h.apart (List.prefix_refl _)
  · exact h.apart ((List.prefix_append staging [a]).trans hp)

theorem Staged.ne (h : Staged t directory stagingPath output staging) (a b : String) :
    output ++ [b] ≠ staging ++ [a] := by
  intro heq
  exact h.not_above a b (heq ▸ List.prefix_refl _)

theorem rename_ok (hs : Staged t directory stagingPath output staging) (hn : Plain name)
    {entry : Entry} (hfile : t.entry? (staging ++ [name]) = some entry)
    (h : t.rename (join stagingPath name) (join directory name) = .ok t') :
    t.Keeps t' ∧ t'.entry? (output ++ [name]) = some entry ∧
      ∀ q, q ≠ output ++ [name] → ¬ staging ++ [name] <+: q → t'.entry? q = t.entry? q := by
  obtain ⟨a, b, e, ha, he, hed, hb, hbd, rfl⟩ := FileTree.rename_ok h
  obtain rfl : staging ++ [name] = a := Except.ok.inj ((hs.atStaging.place_join hn).symm.trans ha)
  obtain rfl : output ++ [name] = b := Except.ok.inj ((hs.atOutput.place_join hn).symm.trans hb)
  obtain rfl : e = entry := Option.some.inj (he.symm.trans hfile)
  refine ⟨(FileTree.keeps_set hbd).erase ?_, ?_, ?_⟩
  · rw [he]
    simpa using hed
  · rw [FileTree.entry?_erase_of_not_above (hs.not_above name name)]
    exact FileTree.entry?_set_self (by simp)
  · intro q hq hq'
    rw [FileTree.entry?_erase_of_not_above hq', FileTree.entry?_set_of_ne hq]

theorem publishFiles_ok (hs : Staged t directory stagingPath output staging)
    (hplain : ∀ f ∈ files, Plain f.1) (hnodup : (files.map (·.1)).Nodup)
    (hfiles : ∀ f ∈ files, t.entry? (staging ++ [f.1]) = some (.file (.ofChars f.2)))
    (h : applyAll t (files.map fun f => .publish (join stagingPath f.1) (join directory f.1)) =
      .ok t') :
    t.Keeps t' ∧ (∀ f ∈ files, t'.entry? (output ++ [f.1]) = some (.file (.ofChars f.2))) := by
  -- What is published stays, so the statement is proved with the other places beside it.
  suffices hall : t.Keeps t' ∧
      (∀ f ∈ files, t'.entry? (output ++ [f.1]) = some (.file (.ofChars f.2))) ∧
      ∀ n, (∀ f ∈ files, n ≠ f.1) → t'.entry? (output ++ [n]) = t.entry? (output ++ [n]) from
    ⟨hall.1, hall.2.1⟩
  induction files generalizing t with
  | nil =>
    obtain rfl : t = t' := Except.ok.inj h
    exact ⟨Keeps.refl t, by simp, fun _ _ => rfl⟩
  | cons f files ih =>
    obtain ⟨hf, hplain⟩ := List.forall_mem_cons.mp hplain
    obtain ⟨hnew, hnodup⟩ := List.nodup_cons.mp hnodup
    obtain ⟨hfile, hfiles⟩ := List.forall_mem_cons.mp hfiles
    have hother : ∀ g ∈ files, g.1 ≠ f.1 := by
      intro g hg heq
      exact hnew (List.mem_map.mpr ⟨g, hg, heq⟩)
    rw [List.map_cons, applyAll_cons] at h
    obtain ⟨u, hu, h⟩ := bind_ok.mp h
    obtain ⟨hku, hpublished, hrest⟩ := rename_ok hs hf hfile hu
    have hstaged : ∀ g ∈ files, u.entry? (staging ++ [g.1]) = some (.file (.ofChars g.2)) := by
      intro g hg
      rw [hrest _ (hs.ne g.1 f.1).symm, hfiles g hg]
      intro hp
      have heq : staging ++ [f.1] = staging ++ [g.1] := hp.eq_of_length (by simp)
      exact hother g hg (by simpa using heq.symm)
    obtain ⟨hk, hdone, hrest'⟩ := ih (hs.keeps hku) hplain hnodup hstaged h
    refine ⟨hku.trans hk, ?_, ?_⟩
    · intro g hg
      rcases List.mem_cons.mp hg with rfl | hg
      · rw [hrest' g.1 fun other ho heq => hother other ho heq.symm, hpublished]
      · exact hdone g hg
    · intro n hn
      obtain ⟨hnf, hn⟩ := List.forall_mem_cons.mp hn
      rw [hrest' n hn, hrest _ (by simpa using hnf) (hs.not_above f.1 n)]

-- ---------------------------------------------------------------------------
-- Exports
-- ---------------------------------------------------------------------------

def published (stamp : Stamp) (style : LabelStyle) (p : ExportParts) : List (String × List Char) :=
  artifacts style p ++ [(manifestFile, (manifest stamp style p).write)]

theorem plain_published (stamp : Stamp) {style : LabelStyle} {f : String × List Char}
    (hf : f ∈ published stamp style p) : Plain f.1 := by
  have hname : f.1 ∈ [matrixFile, vocabularyFile, labelsFile, manifestFile] :=
    List.mem_map_of_mem hf
  revert hname
  generalize f.1 = name
  intro hname
  have hall : ∀ n ∈ [matrixFile, vocabularyFile, labelsFile, manifestFile], Plain n := by decide
  exact hall name hname

theorem stagedActions_ok
    (hs : Staged t target.directory (join target.directory stamp.staging) output staging)
    (h : applyAll t (stagedActions target stamp p) = .ok t') :
    t.Keeps t' ∧ ∀ f ∈ published stamp target.labelStyle p,
      t'.entry? (output ++ [f.1]) = some (.file (.ofChars f.2)) := by
  have hplain : ∀ f ∈ artifacts target.labelStyle p, Plain f.1 := fun f hf =>
    plain_published stamp (List.mem_append_left _ hf)
  have hmanifest : Plain manifestFile := by decide
  have hnodup : ((artifacts target.labelStyle p).map (·.1)).Nodup := by
    change [matrixFile, vocabularyFile, labelsFile].Nodup
    decide
  have hother : ∀ f ∈ artifacts target.labelStyle p, f.1 ≠ manifestFile := by
    intro f hf
    have hname : f.1 ∈ [matrixFile, vocabularyFile, labelsFile] := List.mem_map_of_mem hf
    rintro heq
    rw [heq] at hname
    revert hname
    decide
  obtain ⟨w, h, hpublishManifest⟩ := (applyAll_append _ _).mp h
  obtain ⟨v, h, hwriteManifest⟩ := (applyAll_append _ _).mp h
  obtain ⟨u, hwrite, hpublish⟩ := (applyAll_append _ _).mp h
  obtain ⟨hku, hwritten, -⟩ := writeFiles_ok hs.atStaging hplain hnodup hwrite
  obtain ⟨hkv, hdone⟩ := publishFiles_ok (hs.keeps hku) hplain hnodup hwritten hpublish
  have hsv := (hs.keeps hku).keeps hkv
  obtain ⟨hkw, hcontent, hrest⟩ := writeActions_ok hsv.atStaging hmanifest hwriteManifest
  have hrename : w.rename (join (join target.directory stamp.staging) manifestFile)
      (join target.directory manifestFile) = .ok t' := by
    rw [applyAll_singleton] at hpublishManifest
    exact hpublishManifest
  obtain ⟨hkt, hlast, hrest'⟩ := rename_ok (hsv.keeps hkw) hmanifest hcontent hrename
  refine ⟨((hku.trans hkv).trans hkw).trans hkt, ?_⟩
  intro f hf
  rcases List.mem_append.mp hf with hf | hf
  · rw [hrest' _ (by simpa using hother f hf) (hs.not_above _ _), hrest _ (hs.ne _ _), hdone f hf]
  · obtain rfl := List.mem_singleton.mp hf
    exact hlast

/-- The removal of the staging directory takes nothing of what was published. -/
theorem removeStaging_ok (hk : t.Keeps t') (hnone : t.entry? staging = none)
    (hs : Staged t' target.directory (join target.directory stamp.staging) output staging) :
    t.Keeps (removeStaging target stamp t') ∧
      ∀ name entry, t'.entry? (output ++ [name]) = some entry → entry ≠ .directory →
        FileTree.entry? (removeStaging target stamp t') (output ++ [name]) = some entry := by
  unfold removeStaging
  cases hremove : t'.removeAll (join target.directory stamp.staging) with
  | error fault => exact ⟨hk, fun name entry he _ => he⟩
  | ok u =>
    obtain ⟨r, hr, rfl⟩ := FileTree.removeAll_ok hremove
    obtain rfl : staging = r :=
      Except.ok.inj (hs.atStaging.walk.symm.trans (FileTree.place_eq_ok hr).2)
    refine ⟨hk.erase (by simp [hnone]), fun name entry he hentry => ?_⟩
    change FileTree.entry? (t'.erase staging) (output ++ [name]) = some entry
    rw [FileTree.entry?_erase_of_not_above, he]
    intro hp
    rcases List.prefix_concat_iff.mp hp with heq | hp
    · rw [← heq, hs.atStaging.solid.entry_eq] at he
      exact hentry (Option.some.inj he).symm
    · exact hs.apart hp

theorem prepareActions_ok {stale : Bool} (ho : t.Placed target.directory output)
    (h : applyAll t (prepareActions target stamp stale) = .ok t') :
    ∃ (u : FileTree) (staging : Place), u.Placed target.directory output ∧ u.Keeps t' ∧
      u.entry? staging = none ∧
      Staged t' target.directory (join target.directory stamp.staging) output staging := by
  obtain ⟨u, hremove, hmake⟩ := (applyAll_append _ _).mp h
  have hku : t.Keeps u := by
    cases stale with
    | false =>
      obtain rfl : t = u := Except.ok.inj hremove
      exact Keeps.refl t
    | true =>
      exact (FileTree.removeFile_ok ((applyAll_singleton _).symm.trans hremove)).1
  rw [applyAll_singleton] at hmake
  obtain ⟨staging, -, hk, hplaced, hnone, -⟩ := FileTree.makeDirectory_ok hmake
  have hou := ho.keeps hku
  exact ⟨u, staging, hou, hk, hnone, hou.keeps hk, hplaced, hou.solid.not_above hnone⟩

theorem read_run {files : FileTree} (hcheck : checkAlignment p = .ok ())
    (hactions : ∀ action fault,
      (run fails files target stamp p).result ≠ .error (Action.failure action fault)) :
    (run fails files target stamp p).result = .ok (manifest stamp target.labelStyle p) ∧
      ∀ f ∈ published stamp target.labelStyle p,
        (run fails files target stamp p).files.read (join target.directory f.1) =
          .ok (.ofChars f.2) := by
  have hread (t : FileTree) (output : Place) (ho : t.Placed target.directory output)
      (hfiles : ∀ f ∈ published stamp target.labelStyle p,
        t.entry? (output ++ [f.1]) = some (.file (.ofChars f.2))) :
      ∀ f ∈ published stamp target.labelStyle p,
        t.read (join target.directory f.1) = .ok (.ofChars f.2) := fun f hf =>
    FileTree.read_of_entry (ho.place_join (plain_published stamp hf)) (hfiles f hf)
  rw [run, hcheck] at hactions ⊢
  simp only at hactions ⊢
  rcases perform_eq fails 0 files [.makeOutput target.directory] with
    ⟨-, action, -, fault, u, herror, -⟩ | ⟨made, hperform, hmake⟩
  · rw [herror] at hactions
    exact absurd rfl (hactions action fault)
  · rw [hperform] at hactions ⊢
    simp only at hactions ⊢
    generalize made.exists? (join target.directory manifestFile) = stale at hactions ⊢
    rcases perform_eq fails 1 made (prepareActions target stamp stale) with
      ⟨-, action, -, fault, u, herror, -⟩ | ⟨prepared, hperform, hprepare⟩
    · rw [herror] at hactions
      exact absurd rfl (hactions action fault)
    · rw [hperform] at hactions ⊢
      simp only at hactions ⊢
      generalize 1 + (prepareActions target stamp stale).length = number at hactions ⊢
      rcases perform_eq fails number prepared (stagedActions target stamp p)
        with ⟨-, action, -, fault, u, herror, -⟩ | ⟨done, hperform, hstage⟩
      · rw [herror] at hactions
        exact absurd rfl (hactions action fault)
      · rw [hperform]
        rw [applyAll_singleton] at hmake
        obtain ⟨output, ho⟩ := FileTree.makeDirectories_ok hmake
        obtain ⟨base, staging, hbase, hk, hnone, hs⟩ := prepareActions_ok ho hprepare
        obtain ⟨hkd, hdone⟩ := stagedActions_ok hs hstage
        obtain ⟨hkeep, hrest⟩ := removeStaging_ok (hk.trans hkd) hnone (hs.keeps hkd)
        refine ⟨rfl, hread _ output (hbase.keeps hkeep) fun f hf => ?_⟩
        exact hrest f.1 _ (hdone f hf) (by simp)

-- ---------------------------------------------------------------------------
-- Answers
-- ---------------------------------------------------------------------------

theorem perform_error {t' : FileTree} {number : Nat} {actions : List Action} {e : RunError}
    (h : perform fails number t actions = (.error e, t')) : ∃ text, e = .publish text := by
  rcases perform_eq fails number t actions with
    ⟨-, action, -, fault, u, herror, -⟩ | ⟨u, hok, -⟩
  · rw [herror] at h
    cases h
    cases action <;> exact ⟨_, rfl⟩
  · rw [hok] at h
    cases h

theorem checkAlignment_error {e : RunError} (h : checkAlignment p = .error e) :
    ∃ text, e = .consistency text := by
  unfold checkAlignment at h
  cases hv : p.vocabulary.check with
  | error fault =>
    rw [hv] at h
    cases h
    exact ⟨_, rfl⟩
  | ok _ =>
    rw [hv] at h
    change ite _ _ _ = _ at h
    split at h
    · cases h
      exact ⟨_, rfl⟩
    · split at h
      · cases h
        exact ⟨_, rfl⟩
      · split at h
        · cases h
          exact ⟨_, rfl⟩
        · cases h

/-- What an export can answer: its manifest, parts that do not fit together, or a failed action. -/
theorem run_answers (fails : Nat → Option IoFault) (files : FileTree) (target : ExportTarget)
    (stamp : Stamp) (p : ExportParts) :
    (run fails files target stamp p).result = .ok (manifest stamp target.labelStyle p) ∨
      ∃ text, (run fails files target stamp p).result = .error (.consistency text) ∨
        (run fails files target stamp p).result = .error (.publish text) := by
  unfold run
  cases hcheck : checkAlignment p with
  | error e =>
    obtain ⟨text, rfl⟩ := checkAlignment_error hcheck
    exact .inr ⟨text, .inl rfl⟩
  | ok _ =>
    simp only
    split
    · rename_i e u herror
      obtain ⟨text, rfl⟩ := perform_error herror
      exact .inr ⟨text, .inr rfl⟩
    · rename_i made hmade
      split
      · rename_i e u herror
        obtain ⟨text, rfl⟩ := perform_error herror
        exact .inr ⟨text, .inr rfl⟩
      · rename_i prepared hprepared
        generalize 1 + (prepareActions target stamp _).length = number
        cases hstaged : perform fails number prepared (stagedActions target stamp p) with
        | mk result u =>
          cases result with
          | error e =>
            obtain ⟨text, rfl⟩ := perform_error hstaged
            exact .inr ⟨text, .inr rfl⟩
          | ok _ => exact .inl rfl

theorem read_of_ok {files : FileTree} {m : Manifest}
    (h : (run fails files target stamp p).result = .ok m) :
    checkAlignment p = .ok () ∧
      ∀ f ∈ published stamp target.labelStyle p,
        (run fails files target stamp p).files.read (join target.directory f.1) =
          .ok (.ofChars f.2) := by
  have hcheck : checkAlignment p = .ok () := by
    unfold run at h
    split at h
    · cases h
    · assumption
  refine ⟨hcheck, (read_run hcheck fun action fault herror => ?_).2⟩
  cases h.symm.trans herror

end FlowTally.Export
