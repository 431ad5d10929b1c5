/-!
# File content

A file is a list of symbols: a character, or `none` for a byte that belongs to
no UTF-8 character. Lines end at a line feed; a carriage return directly
before that line feed belongs to the line end. A last line without line feed
keeps all of its symbols, and no empty line follows a final line feed.
-/

namespace FlowTally

/-- Symbols of a file, `none` for a byte outside every character. -/
abbrev Content := List (Option Char)

namespace Content

def ofChars (cs : List Char) : Content := cs.map some

def ofString (s : String) : Content := ofChars s.toList

def chars? : Content → Option (List Char)
  | [] => some []
  | none :: _ => none
  | some c :: rest => (chars? rest).map (c :: ·)

def text? (content : Content) : Option String := content.chars?.map String.ofList

def lines : Content → List Content
  | [] => []
  | some '\n' :: rest => [] :: lines rest
  | some '\r' :: some '\n' :: rest => [] :: lines rest
  | c :: rest =>
    match lines rest with
    | [] => [[c]]
    | line :: others => (c :: line) :: others

@[simp] theorem chars?_ofChars (cs : List Char) : (ofChars cs).chars? = some cs := by
  induction cs with
  | nil => rfl
  | cons c cs ih => simpa [ofChars, chars?] using ih

theorem ofChars_append (xs ys : List Char) : ofChars (xs ++ ys) = ofChars xs ++ ofChars ys := by
  simp [ofChars]

def continuation? (b : UInt8) : Option Nat :=
  if 0x80 ≤ b.toNat ∧ b.toNat < 0xC0 then some (b.toNat - 0x80) else none

/-- The character that `lead` starts, and how many of the following bytes it takes.
Overlong forms, surrogates and values past the last code point start none. -/
def character? (lead : UInt8) (rest : List UInt8) : Option (Char × Nat) :=
  let a := lead.toNat
  if a < 0x80 then some (Char.ofNat a, 0)
  else if a < 0xE0 then do
    let b ← rest[0]? >>= continuation?
    let n := (a - 0xC0) * 64 + b
    if 0xC2 ≤ a then some (Char.ofNat n, 1) else none
  else if a < 0xF0 then do
    let b ← rest[0]? >>= continuation?
    let c ← rest[1]? >>= continuation?
    let n := (a - 0xE0) * 4096 + b * 64 + c
    if 0x800 ≤ n ∧ ¬ (0xD800 ≤ n ∧ n < 0xE000) then some (Char.ofNat n, 2) else none
  else do
    let b ← rest[0]? >>= continuation?
    let c ← rest[1]? >>= continuation?
    let d ← rest[2]? >>= continuation?
    let n := (a - 0xF0) * 262144 + b * 4096 + c * 64 + d
    if a < 0xF8 ∧ 0x10000 ≤ n ∧ n < 0x110000 then some (Char.ofNat n, 3) else none

/-- Symbols of raw bytes; a byte that starts no character stands alone. -/
def ofBytes : List UInt8 → Content
  | [] => []
  | lead :: rest =>
    match character? lead rest with
    | some (c, taken) => some c :: ofBytes (rest.drop taken)
    | none => none :: ofBytes rest
termination_by bytes => bytes.length
decreasing_by all_goals simp only [List.length_cons, List.length_drop]; omega

end Content

end FlowTally
