/-!
# The keyboard decoder

A keyboard sends a code when a key is pressed and the same code with its
highest bit set when the key is released; a lead byte announces the keys of an
extended set.  The decoder keeps track of the modifier keys and turns presses
of the other keys into characters of the US layout.  With a control key held, a
letter yields its control character.
-/

namespace Timeshare.Machine

/-- The lead byte that came last, if it still waits for its code. -/
inductive Lead where
  | none
  | e0
  | e1
  deriving DecidableEq

/-- The state of the decoder. -/
structure Keyboard where
  lead : Lead
  leftShift : Bool
  rightShift : Bool
  leftControl : Bool
  rightControl : Bool
  /-- The control key of the keypad's second set. -/
  extraControl : Bool
  capsLock : Bool
  numLock : Bool
  deriving DecidableEq

namespace Keyboard

/-- No key is held; the number lock is on. -/
def initial : Keyboard := ⟨.none, false, false, false, false, false, false, true⟩

/-- What a key does. -/
inductive Key where
  | leftShift
  | rightShift
  | leftControl
  | rightControl
  | extraControl
  | capsLock
  | numLock
  /-- A letter, given in lower case. -/
  | letter (c : Char)
  /-- A key with one character and another with shift. -/
  | pair (plain shifted : Char)
  /-- A key whose character never changes. -/
  | fixed (c : Char)
  /-- A key with a character only while the number lock is on. -/
  | digit (c : Char)
  /-- A key with one character while the number lock is on and another else. -/
  | keypad (locked unlocked : Char)
  deriving DecidableEq

/-- The delete character. -/
def delete : Char := '\x7f'

/-- The keys in rows of neighbouring codes. -/
def rows : List (Nat × List Key) :=
  [(0x01, [.fixed '\x1b']),
   (0x02, [.pair '1' '!', .pair '2' '@', .pair '3' '#', .pair '4' '$', .pair '5' '%',
     .pair '6' '^', .pair '7' '&', .pair '8' '*', .pair '9' '(', .pair '0' ')', .pair '-' '_',
     .pair '=' '+', .fixed '\x08', .fixed '\t']),
   (0x10, "qwertyuiop".toList.map .letter),
   (0x1A, [.pair '[' '\x7b', .pair ']' '\x7d', .fixed '\n', .leftControl]),
   (0x1E, "asdfghjkl".toList.map .letter),
   (0x27, [.pair ';' ':', .pair '\x27' '"', .pair '\x60' '~', .leftShift]),
   (0x2C, "zxcvbnm".toList.map .letter),
   (0x33, [.pair ',' '<', .pair '.' '>', .pair '/' '?', .rightShift, .fixed '*']),
   (0x39, [.fixed ' ', .capsLock]),
   (0x45, [.numLock]),
   (0x47, [.digit '7', .digit '8', .digit '9', .fixed '-', .digit '4', .fixed '5', .digit '6',
     .fixed '+', .digit '1', .digit '2', .digit '3', .digit '0', .keypad '.' delete]),
   (0x56, [.pair '\\' '|'])]

/-- The key with a given code. -/
def plainKey? (code : Nat) : Option Key :=
  rows.findSome? fun (first, keys) => if first ≤ code then keys[code - first]? else none

/-- The key with a given code in the set behind a lead byte. -/
def key? (lead : Lead) (code : UInt8) : Option Key :=
  match lead with
  | .none => plainKey? code.toNat
  | .e0 =>
      match code with
      | 0x1C => some (.fixed '\n')
      | 0x1D => some .rightControl
      | 0x35 => some (.fixed '/')
      | 0x53 => some (.fixed delete)
      | _ => none
  | .e1 => if code = 0x1D then some .extraControl else none

/-- The character of a letter key. -/
def letter (k : Keyboard) (c : Char) : Char :=
  if k.leftControl || k.rightControl then Char.ofNat (c.toNat - 'a'.toNat + 1)
  else if (k.leftShift || k.rightShift) != k.capsLock then c.toUpper
  else c

/-- A key is pressed. -/
def press (k : Keyboard) : Key → Option Char × Keyboard
  | .leftShift => (none, { k with leftShift := true })
  | .rightShift => (none, { k with rightShift := true })
  | .leftControl => (none, { k with leftControl := true })
  | .rightControl => (none, { k with rightControl := true })
  | .extraControl => (none, { k with extraControl := true })
  | .capsLock => (none, { k with capsLock := !k.capsLock })
  | .numLock => (none, if k.extraControl then k else { k with numLock := !k.numLock })
  | .letter c => (some (k.letter c), k)
  | .pair plain shifted => (some (if k.leftShift || k.rightShift then shifted else plain), k)
  | .fixed c => (some c, k)
  | .digit c => (if k.numLock then some c else none, k)
  | .keypad locked unlocked => (some (if k.numLock then locked else unlocked), k)

/-- A key is released. -/
def release (k : Keyboard) : Key → Keyboard
  | .leftShift => { k with leftShift := false }
  | .rightShift => { k with rightShift := false }
  | .leftControl => { k with leftControl := false }
  | .rightControl => { k with rightControl := false }
  | .extraControl => { k with extraControl := false }
  | _ => k

/-- A byte arrives from the keyboard. -/
def decode (k : Keyboard) (byte : UInt8) : Option Char × Keyboard :=
  if k.lead = .none ∧ byte = 0xE0 then (none, { k with lead := .e0 })
  else if k.lead = .none ∧ byte = 0xE1 then (none, { k with lead := .e1 })
  else
    let rest := { k with lead := .none }
    if byte < 0x80 then
      match key? k.lead byte with
      | none => (none, rest)
      | some key => rest.press key
    else
      match key? k.lead (byte - 0x80) with
      | none => (none, rest)
      | some key => (none, rest.release key)

end Keyboard

end Timeshare.Machine
