import FlowTally.Yaml.Node

/-!
# Tokens of block mappings as nodes

A reader of nodes looks at the first token of a value and, behind a list that
is not indented, at the token after it. `Reads` says of some tokens that they
are one node wherever they stand behind a key, given fuel for each of them. It
holds for scalars and lists of them, and of a mapping if it holds of its values.
-/

namespace FlowTally.Yaml

def keyTokens (name : List Char) : List Token := [.key, .scalar name true, .value]

namespace Node

variable {ts rest : List Token} {node : Node} {fuel : Nat}

/-- Behind a key, the tokens are read as the node, and what follows them is left. -/
structure Reads (ts : List Token) (node : Node) : Prop where
  starts : ∀ rest, endsPair (ts ++ rest) = false
  read : ∀ fuel rest, ts.length < fuel → rest.head? ≠ some .entry →
    Node.read fuel .mapping (ts ++ rest) = .ok (node, rest)

theorem exists_fuel {k : Nat} (h : k < fuel) : ∃ left, fuel = left + (k + 1) :=
  ⟨fuel - (k + 1), (Nat.sub_add_cancel h).symm⟩

theorem reads_scalar (text : List Char) (isPlain : Bool) :
    Reads [.scalar text isPlain] (.scalar text isPlain) where
  starts _ := rfl
  read fuel rest hfuel _ := by
    obtain ⟨fuel, rfl⟩ := exists_fuel hfuel
    rfl

-- ---------------------------------------------------------------------------
-- Lists
-- ---------------------------------------------------------------------------

theorem reads_empty : Reads [.flowSequence, .flowSequenceEnd] (.sequence []) where
  starts _ := rfl
  read fuel rest hfuel _ := by
    obtain ⟨fuel, rfl⟩ := exists_fuel hfuel
    rfl

def itemTokens (items : List (List Char × Bool)) : List Token :=
  items.flatMap fun item => [.entry, .scalar item.1 item.2]

def itemNodes (items : List (List Char × Bool)) : List Node :=
  items.map fun item => .scalar item.1 item.2

theorem length_itemTokens (items : List (List Char × Bool)) :
    (itemTokens items).length = items.length * 2 := by
  induction items with
  | nil => rfl
  | cons item items ih =>
    rw [List.length_cons, Nat.succ_mul, ← ih]
    rfl

theorem plainItems_scalars {items : List (List Char × Bool)} (hfuel : items.length < fuel)
    (hrest : rest.head? ≠ some .entry) :
    plainItems fuel (itemTokens items ++ rest) = .ok (itemNodes items, rest) := by
  induction items generalizing fuel with
  | nil =>
    obtain ⟨fuel, rfl⟩ := exists_fuel hfuel
    cases rest with
    | nil => rfl
    | cons t rest =>
      cases t with
      | entry => exact absurd rfl hrest
      | _ => rfl
  | cons item items ih =>
    obtain ⟨left, rfl⟩ := exists_fuel (Nat.lt_of_le_of_lt (Nat.le_add_left 1 _) hfuel)
    have hnext : plainItems (left + 1) (itemTokens items ++ rest) = _ :=
      ih (Nat.lt_of_succ_lt_succ hfuel)
    change ((plainItems (left + 1) (itemTokens items ++ rest)).map _ : Outcome _) = _
    rw [hnext]
    rfl

theorem reads_items {items : List (List Char × Bool)} (hne : items ≠ []) :
    Reads (itemTokens items) (.sequence (itemNodes items)) where
  starts rest := by
    cases items with
    | nil => exact absurd rfl hne
    | cons item items => rfl
  read fuel rest hfuel hrest := by
    obtain ⟨fuel, rfl⟩ := exists_fuel (Nat.lt_of_le_of_lt (Nat.zero_le _) hfuel)
    have hpos := List.length_pos_iff.mpr hne
    rw [length_itemTokens] at hfuel
    have hitems : plainItems fuel (itemTokens items ++ rest) = _ :=
      plainItems_scalars (by omega) hrest
    cases items with
    | nil => exact absurd rfl hne
    | cons item items =>
      change ((plainItems fuel (itemTokens (item :: items) ++ rest)).map _ : Outcome _) = _
      rw [hitems]
      rfl

-- ---------------------------------------------------------------------------
-- Mappings
-- ---------------------------------------------------------------------------

abbrev Entries := List (List Char × List Token × Node)

def entryTokens (entries : Entries) : List Token :=
  entries.flatMap fun entry => keyTokens entry.1 ++ entry.2.1

def entryNodes (entries : Entries) : List (Node × Node) :=
  entries.map fun entry => (.scalar entry.1 true, entry.2.2)

theorem head_entryTokens (entries : Entries) (rest : List Token) :
    (entryTokens entries ++ .blockEnd :: rest).head? ≠ some .entry := by
  cases entries with
  | nil => exact nofun
  | cons entry entries => exact nofun

theorem pairs_entries {entries : Entries} (h : ∀ entry ∈ entries, Reads entry.2.1 entry.2.2)
    (hfuel : (entryTokens entries).length < fuel) :
    pairs fuel (entryTokens entries ++ .blockEnd :: rest) = .ok (entryNodes entries, rest) := by
  induction entries generalizing fuel with
  | nil =>
    obtain ⟨fuel, rfl⟩ := exists_fuel hfuel
    rfl
  | cons entry entries ih =>
    obtain ⟨hentry, hentries⟩ := List.forall_mem_cons.mp h
    have hlength : (entryTokens (entry :: entries)).length =
        3 + entry.2.1.length + (entryTokens entries).length := by
      simp [entryTokens, keyTokens]
      omega
    obtain ⟨left, rfl⟩ := exists_fuel (show 2 < fuel by omega)
    have hrest : pairs (left + 2) (entryTokens entries ++ .blockEnd :: rest) = _ :=
      ih hentries (by omega)
    have hvalue := hentry.read (left + 1) (entryTokens entries ++ .blockEnd :: rest) (by omega)
      (head_entryTokens entries rest)
    have hpair : pairValue (left + 2)
        (.value :: (entry.2.1 ++ (entryTokens entries ++ .blockEnd :: rest))) =
        .ok (entry.2.2, entryTokens entries ++ .blockEnd :: rest) := by
      rw [pairValue]
      simp only [hentry.starts, orAbsent, hvalue]
      rfl
    have htokens : entryTokens (entry :: entries) ++ .blockEnd :: rest =
        .key :: .scalar entry.1 true :: .value ::
          (entry.2.1 ++ (entryTokens entries ++ .blockEnd :: rest)) := by
      simp [entryTokens, keyTokens]
    rw [htokens]
    change ((pairValue (left + 2) _).bind _ : Outcome _) = _
    rw [hpair]
    change ((pairs (left + 2) (entryTokens entries ++ .blockEnd :: rest)).map _ : Outcome _) = _
    rw [hrest]
    rfl

theorem read_mapping {entries : Entries} {place : Place}
    (h : ∀ entry ∈ entries, Reads entry.2.1 entry.2.2) (hplace : place ≠ .flow)
    (hfuel : (entryTokens entries).length + 1 < fuel) (rest : List Token) :
    Node.read fuel place (.blockMapping :: (entryTokens entries ++ .blockEnd :: rest)) =
      .ok (.mapping (entryNodes entries), rest) := by
  obtain ⟨fuel, rfl⟩ := exists_fuel (Nat.lt_of_le_of_lt (Nat.zero_le _) hfuel)
  rw [Node.read, if_neg hplace, pairs_entries h (Nat.lt_of_succ_lt_succ hfuel)]
  rfl

def mappingTokens (entries : Entries) : List Token :=
  .blockMapping :: (entryTokens entries ++ [.blockEnd])

theorem length_mappingTokens (entries : Entries) :
    (mappingTokens entries).length = (entryTokens entries).length + 2 := by
  simp [mappingTokens]

theorem reads_mapping {entries : Entries} (h : ∀ entry ∈ entries, Reads entry.2.1 entry.2.2) :
    Reads (mappingTokens entries) (.mapping (entryNodes entries)) where
  starts _ := rfl
  read fuel rest hfuel _ := by
    rw [length_mappingTokens] at hfuel
    rw [mappingTokens, List.cons_append, List.append_assoc]
    exact read_mapping h (by decide) (Nat.lt_of_succ_lt hfuel) rest

theorem ofTokens_mapping {entries : Entries}
    (h : ∀ entry ∈ entries, Reads entry.2.1 entry.2.2) :
    ofTokens (mappingTokens entries) = .ok (.mapping (entryNodes entries)) := by
  have hfuel : (entryTokens entries).length + 1 < 3 * (mappingTokens entries).length + 3 := by
    rw [length_mappingTokens]
    omega
  have hread : Node.read _ .block (mappingTokens entries) = .ok _ :=
    read_mapping h (by decide) hfuel []
  rw [ofTokens.eq_def]
  simp only [mappingTokens] at hread ⊢
  rw [hread]
  rfl

end Node

end FlowTally.Yaml
