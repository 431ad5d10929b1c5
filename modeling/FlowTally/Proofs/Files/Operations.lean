import FlowTally.Proofs.Except
import FlowTally.Proofs.Files.Walk

/-!
# What operations on files do

Each operation that succeeds has found its places and changed one entry or
removed what lies below one; the inversion lemmas say which. All operations but
the removal of directories keep the solid places.
-/

namespace FlowTally.FileTree

variable {t t' : FileTree} {p at' : Place} {entry : Entry} {content : Content} {ns : List String}
  {cs : List Char} {directory path source target name : String}

-- ---------------------------------------------------------------------------
-- Paths
-- ---------------------------------------------------------------------------

structure Plain (name : String) : Prop where
  nonempty : name ≠ ""
  noSlash : '/' ∉ name.toList
  notDot : name ≠ "."
  notParent : name ≠ ".."

instance (name : String) : Decidable (Plain name) :=
  decidable_of_iff (name ≠ "" ∧ '/' ∉ name.toList ∧ name ≠ "." ∧ name ≠ "..")
    ⟨fun ⟨h, hs, hd, hp⟩ => ⟨h, hs, hd, hp⟩, fun ⟨h, hs, hd, hp⟩ => ⟨h, hs, hd, hp⟩⟩

def inner (cs : List Char) : List String := ((cs.splitOn '/').map String.ofList).filter (· != "")

theorem inner_append (xs ys : List Char) : inner (xs ++ '/' :: ys) = inner xs ++ inner ys := by
  rw [inner, List.splitOn_append_cons_self, List.map_append, List.filter_append]
  rfl

theorem inner_plain (h : Plain name) : inner name.toList = [name] := by
  simp [inner, List.splitOn_eq_singleton h.noSlash, h.nonempty]

theorem names_eq (path : String) :
    names path = inner path.toList ∨ names path = inner path.toList ++ ["."] := by
  unfold names
  simp only
  split
  · exact .inr rfl
  · exact .inl rfl

theorem names_of_plain (h : Plain name) (hpath : path.toList = cs ++ '/' :: name.toList) :
    names path = inner cs ++ [name] := by
  have hlast : ((path.toList.splitOn '/').map String.ofList).getLast? = some name := by
    rw [hpath, List.splitOn_append_cons_self, List.splitOn_eq_singleton h.noSlash]
    simp
  have hinner : inner path.toList = inner cs ++ [name] := by
    rw [hpath, inner_append, inner_plain h]
  rw [← hinner]
  unfold names
  simp only [hlast, Option.some.injEq, h.nonempty, and_false, if_false]
  rfl

theorem names_join (h : Plain name) (directory : String) :
    names (join directory name) = inner directory.toList ++ [name] := by
  have hstart : name.startsWith "/" = false := by
    refine String.startsWith_string_eq_false_iff.mpr fun hp => h.noSlash ?_
    exact hp.subset (by simp)
  unfold join
  rw [if_neg (by simp [hstart])]
  split
  · rename_i hend
    rcases hend with rfl | hend
    · have hsplit : name.toList.splitOn '/' = [name.toList] := List.splitOn_eq_singleton h.noSlash
      simp [names, inner, hsplit, h.nonempty]
    · rw [← String.endsWith_toSlice, String.Slice.endsWith_string_iff, String.copy_toSlice] at hend
      obtain ⟨cs, hcs⟩ := hend
      have hpath : (directory ++ name).toList = cs ++ '/' :: name.toList := by
        simp [← hcs]
      have hend : inner directory.toList = inner cs := by
        rw [← hcs, show "/".toList = '/' :: [] from rfl, inner_append]
        simp [inner]
      rw [names_of_plain h hpath, hend]
  · have hpath : (directory ++ "/" ++ name).toList = directory.toList ++ '/' :: name.toList := by
      simp
    exact names_of_plain h hpath

-- ---------------------------------------------------------------------------
-- Directories
-- ---------------------------------------------------------------------------

structure Placed (t : FileTree) (directory : String) (place : Place) : Prop where
  walk : t.walk [] (names directory) = .ok place
  solid : t.Solid place

theorem Placed.keeps (h : t.Placed directory p) (hk : t.Keeps t') : t'.Placed directory p :=
  ⟨walk_keeps hk h.walk (solid_root t), hk p h.solid⟩

theorem Placed.walk_inner (h : t.Placed directory p) :
    t.walk [] (inner directory.toList) = .ok p := by
  have hw := h.walk
  rcases names_eq directory with hnames | hnames
  · rwa [hnames] at hw
  · rw [hnames, walk_append] at hw
    cases hi : t.walk [] (inner directory.toList) with
    | error fault =>
      rw [hi] at hw
      cases hw
    | ok q =>
      rw [hi] at hw
      obtain ⟨-, hq⟩ := walk_cons hw
      exact congrArg _ (Except.ok.inj hq)

theorem Placed.place_join (h : t.Placed directory p) (hn : Plain name) :
    t.place (join directory name) = .ok (p ++ [name]) := by
  have hnames := names_join hn directory
  have hne : join directory name ≠ "" := by
    intro heq
    rw [heq] at hnames
    simp [names] at hnames
  rw [place, if_neg hne, hnames, walk_append, h.walk_inner]
  change t.walk p [name] = .ok (p ++ [name])
  rw [walk_next h.solid.entry_eq, next, if_neg hn.notDot, if_neg hn.notParent]
  rfl

theorem placed_makeAll (h : t.makeAll at' ns = .ok t') (hs : t.Solid at') :
    t.Keeps t' ∧ ∃ p, t'.walk at' ns = .ok p ∧ t'.Solid p := by
  induction ns generalizing t at' with
  | nil =>
    cases h
    exact ⟨Keeps.refl _, at', rfl, hs⟩
  | cons n ns ih =>
    have hat (hk : t.Keeps t') : t'.entry? at' = some .directory := (hk at' hs).entry_eq
    rw [makeAll] at h
    split at h
    · rename_i hdot
      obtain ⟨hk, p, hw, hp⟩ := ih h hs
      exact ⟨hk, p, by simp [walk_next (hat hk), next, hdot, hw], hp⟩
    · rename_i hdot
      split at h
      · rename_i hparent
        obtain ⟨hk, p, hw, hp⟩ := ih h hs.dropLast
        exact ⟨hk, p, by simp [walk_next (hat hk), next, hparent, hw], hp⟩
      · rename_i hparent
        have hwalk (p : Place) (hk : t.Keeps t') (hw : t'.walk (at' ++ [n]) ns = .ok p) :
            t'.walk at' (n :: ns) = .ok p := by
          simp [walk_next (hat hk), next, hdot, hparent, hw]
        simp only at h
        split at h
        · rename_i hnone
          have hset : t.Keeps (t.set (at' ++ [n]) .directory) := keeps_set (by simp [hnone])
          have hnext : (t.set (at' ++ [n]) .directory).Solid (at' ++ [n]) := by
            refine solid_of_dropLast ?_ (entry?_set_self (by simp))
            rw [List.dropLast_concat]
            exact hset at' hs
          obtain ⟨hk, p, hw, hp⟩ := ih h hnext
          exact ⟨hset.trans hk, p, hwalk p (hset.trans hk) hw, hp⟩
        · rename_i hdir
          have hnext : t.Solid (at' ++ [n]) := by
            refine solid_of_dropLast ?_ hdir
            rwa [List.dropLast_concat]
          obtain ⟨hk, p, hw, hp⟩ := ih h hnext
          exact ⟨hk, p, hwalk p hk hw, hp⟩
        · cases h

theorem grows_makeAll (h : t.makeAll at' ns = .ok t') : t.Grows t' := by
  induction ns generalizing t at' with
  | nil =>
    cases h
    exact fun _ _ he => he
  | cons n ns ih =>
    rw [makeAll] at h
    split at h
    · exact ih h
    · split at h
      · exact ih h
      · simp only at h
        split at h
        · rename_i hnone
          intro p e he
          refine ih h p e ?_
          rw [entry?_set_of_ne, he]
          rintro rfl
          simp [hnone] at he
        · exact ih h
        · cases h

theorem makeDirectories_ok (h : t.makeDirectories directory = .ok t') :
    ∃ p, t'.Placed directory p := by
  obtain ⟨-, p, hw, hp⟩ := placed_makeAll h (solid_root t)
  exact ⟨p, hw, hp⟩

theorem makeDirectory_ok (h : t.makeDirectory path = .ok t') :
    ∃ p, t.place path = .ok p ∧ t.Keeps t' ∧ t'.Placed path p ∧ t.entry? p = none ∧
      t' = t.set p .directory := by
  obtain ⟨p, hp, h⟩ := bind_ok.mp h
  split at h
  · cases h
  · cases h
  · rename_i hdir hnone
    cases h
    have hne : p ≠ [] := by
      rintro rfl
      simp at hnone
    have hk : t.Keeps (t.set p .directory) := keeps_set (by simp [hnone])
    have hsolid : (t.set p .directory).Solid p :=
      solid_of_dropLast (hk _ (solid_place hp)) (entry?_set_self hne)
    exact ⟨p, hp, hk, ⟨(place_eq_ok (place_keeps hk hp)).2, hsolid⟩, hnone, rfl⟩
  · cases h

-- ---------------------------------------------------------------------------
-- Files
-- ---------------------------------------------------------------------------

theorem put_ok (h : t.put path entry = .ok t') :
    ∃ p, t.place path = .ok p ∧ t.entry? p ≠ some .directory ∧ t' = t.set p entry := by
  obtain ⟨p, hp, h⟩ := bind_ok.mp h
  split at h
  · cases h
  · cases h
  · rename_i hdir
    cases h
    exact ⟨p, hp, hdir, rfl⟩
  · cases h

theorem entry_of_put (h : t.put path entry = .ok t') :
    ∃ p, t'.place path = .ok p ∧ t'.entry? p = some entry := by
  obtain ⟨p, hp, hdirectory, rfl⟩ := put_ok h
  have hroot : p ≠ [] := by
    rintro rfl
    exact hdirectory (entry?_root t)
  exact ⟨p, place_keeps (keeps_set hdirectory) hp, entry?_set_self hroot⟩

theorem exists_put (hp : t.place path = .ok p) (he : t.entry? p = some entry) (hd : entry ≠ .directory)
    (entry' : Entry) : ∃ t', t.put path entry' = .ok t' := by
  have hdirectory := (solid_place hp).entry_eq
  refine ⟨t.set p entry', ?_⟩
  cases entry with
  | directory => exact absurd rfl hd
  | file content => simp [put, hp, Except.bind, hdirectory, he]
  | database db => simp [put, hp, Except.bind, hdirectory, he]

/-- Whether something can be put in a place does not depend on what it is. -/
theorem exists_put_of_put (h : t.put path entry = .ok t') (entry' : Entry) :
    ∃ t', t.put path entry' = .ok t' := by
  obtain ⟨p, hp, h⟩ := bind_ok.mp h
  refine ⟨t.set p entry', bind_ok.mpr ⟨p, hp, ?_⟩⟩
  split at h
  · cases h
  · cases h
  · rfl
  · cases h

theorem removeFile_ok (h : t.removeFile path = .ok t') :
    t.Keeps t' ∧ ∃ p, t.place path = .ok p ∧ t' = t.erase p := by
  obtain ⟨p, hp, h⟩ := bind_ok.mp h
  split at h
  · cases h
  · cases h
  · rename_i e hdir he
    cases h
    refine ⟨(Keeps.refl t).erase fun hd => ?_, p, hp, rfl⟩
    exact hdir (Option.some.inj (he.symm.trans hd))

theorem rename_ok (h : t.rename source target = .ok t') :
    ∃ p q e, t.place source = .ok p ∧ t.entry? p = some e ∧ e ≠ .directory ∧
      t.place target = .ok q ∧ t.entry? q ≠ some .directory ∧ t' = (t.set q e).erase p := by
  obtain ⟨p, hp, h⟩ := bind_ok.mp h
  split at h
  · cases h
  · cases h
  · rename_i e hdir he
    cases hput : t.put target e with
    | error fault =>
      rw [hput] at h
      cases h
    | ok u =>
      rw [hput] at h
      obtain ⟨q, hq, hqd, rfl⟩ := put_ok hput
      cases h
      exact ⟨p, q, e, hp, he, hdir, hq, hqd, rfl⟩

theorem find_of_entry (hp : t.place path = .ok p) (he : t.entry? p = some entry) :
    t.find path = .ok entry := by
  simp [find, hp, Except.bind, he]

theorem read_of_entry (hp : t.place path = .ok p) (he : t.entry? p = some (.file content)) :
    t.read path = .ok content := by
  rw [read, find_of_entry hp he]
  rfl

theorem exists?_of_place (hp : t.place path = .ok p) :
    t.exists? path = (t.entry? p).isSome := by
  rw [exists?, find, hp]
  cases he : t.entry? p with
  | none => simp [Except.bind, he, Except.toOption]
  | some e => simp [Except.bind, he, Except.toOption]

theorem Grows.read (hg : t.Grows t') (h : t.read path = .ok content) :
    t'.read path = .ok content := by
  obtain ⟨e, he, hread⟩ := bind_ok.mp h
  obtain ⟨p, hp, hentry⟩ := bind_ok.mp he
  have hfind : t'.find path = .ok e := by
    split at hentry
    · rename_i found hfound
      cases hentry
      exact find_of_entry (place_keeps hg.keeps hp) (hg _ _ hfound)
    · cases hentry
  rw [FileTree.read, hfind]
  exact hread

/-- What is gone from a tree that only lost entries does not exist. -/
theorem exists?_erase_eq_false {q : Place} (hp : t.place path = .ok p)
    (he : FileTree.entry? (t.erase q) p = none) : FileTree.exists? (t.erase q) path = false := by
  cases hplace : FileTree.place (t.erase q) path with
  | error fault => simp [exists?, find, hplace, Except.bind, Except.toOption]
  | ok r =>
    obtain rfl : p = r := Except.ok.inj (hp.symm.trans (place_keeps (grows_erase t q).keeps hplace))
    simp [exists?_of_place hplace, he]

theorem exists?_of_read (h : t.read path = .ok content) : t.exists? path = true := by
  obtain ⟨e, he, -⟩ := bind_ok.mp h
  rw [exists?, he]
  rfl

theorem removeAll_ok (h : t.removeAll path = .ok t') :
    ∃ p, t.place path = .ok p ∧ t' = t.erase p := by
  obtain ⟨p, hp, h⟩ := bind_ok.mp h
  split at h
  · cases h
  · cases h
    exact ⟨p, hp, rfl⟩

end FlowTally.FileTree
