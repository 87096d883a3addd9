import Timeshare.Process.Name

/-!
# The longest valid text

Bytes are valid if they encode some characters.  What is decoded from bytes is their
longest valid start, and what is fitted into a room is the longest start of a text that has
room there and ends with a whole character.  Bytes that were cut off behind a fixed number of
bytes are valid exactly if the cut fell between two characters.
-/

namespace Timeshare.Text

variable {bytes : List UInt8} {text other rest : List Char} {c : Char} {room : Nat}

theorem encode_cons (c : Char) (text : List Char) :
    encode (c :: text) = String.utf8EncodeChar c ++ encode text := List.flatMap_cons

theorem length_encode_cons (c : Char) (text : List Char) :
    (encode (c :: text)).length = c.utf8Size + (encode text).length := by
  rw [encode_cons, List.length_append, String.length_utf8EncodeChar]

/-! ## Decoding -/

theorem decodeHead?_of_starts (h : encode (c :: rest) <+: bytes) : decodeHead? bytes = some c := by
  obtain ⟨tail, rfl⟩ := h
  rw [encode_cons, List.append_assoc, decodeHead?, List.toByteArray_append]
  exact ByteArray.utf8DecodeChar?_utf8EncodeChar_append

theorem decodeValid_of_none (hhead : decodeHead? bytes = none) : decodeValid bytes = [] := by
  rw [decodeValid]
  split
  · rfl
  · rename_i hsome
    rw [hhead] at hsome
    contradiction

theorem decodeValid_of_some (hhead : decodeHead? bytes = some c) :
    decodeValid bytes = c :: decodeValid (bytes.drop c.utf8Size) := by
  rw [decodeValid]
  split
  · rename_i hnone
    rw [hhead] at hnone
    contradiction
  · rename_i hsome
    obtain rfl := Option.some.inj (hhead.symm.trans hsome)
    rfl

/-- The text is the longest valid start of the bytes. -/
structure LongestValid (bytes : List UInt8) (text : List Char) : Prop where
  start : encode text <+: bytes
  longest : ∀ other, encode other <+: bytes → other <+: text

theorem longestValid_decodeValid (bytes : List UInt8) : LongestValid bytes (decodeValid bytes) := by
  induction bytes using decodeValid.induct with
  | case1 bytes hhead =>
      rw [decodeValid_of_none hhead]
      refine ⟨⟨bytes, rfl⟩, fun other hother => ?_⟩
      cases other with
      | nil => exact List.nil_prefix
      | cons c rest =>
          rw [decodeHead?_of_starts hother] at hhead
          contradiction
  | case2 bytes c hhead ih =>
      have hsplit := eq_append_of_decodeHead? hhead
      rw [decodeValid_of_some hhead]
      refine ⟨?_, fun other hother => ?_⟩
      · rw [encode_cons, hsplit, List.prefix_append_right_inj, ← hsplit]
        exact ih.start
      · cases other with
        | nil => exact List.nil_prefix
        | cons d rest =>
            -- the first character of any valid start is the one that is decoded
            obtain rfl := Option.some.inj (hhead.symm.trans (decodeHead?_of_starts hother))
            rw [encode_cons, hsplit, List.prefix_append_right_inj] at hother
            exact List.cons_prefix_cons.2 ⟨rfl, ih.longest rest hother⟩

theorem decodeValid_encode (text : List Char) : decodeValid (encode text) = text := by
  induction text with
  | nil => exact decodeValid_of_none rfl
  | cons c rest ih =>
      rw [decodeValid_of_some (decodeHead?_of_starts (List.prefix_refl _)), encode_cons,
        List.drop_left' (String.length_utf8EncodeChar c), ih]

/-- Whatever was encoded is decoded again. -/
theorem decode?_encode (text : List Char) : decode? (encode text) = some text := by
  rw [decode?, decodeValid_encode]
  exact if_pos rfl

/-- Bytes are read as a text exactly if they encode it. -/
theorem decode?_eq_some_iff : decode? bytes = some text ↔ encode text = bytes := by
  constructor
  · intro h
    unfold decode? at h
    dsimp only at h
    split at h
    · rename_i hlength
      injection h with h
      rw [h] at hlength
      exact (h ▸ longestValid_decodeValid bytes).start.eq_of_length hlength
    · contradiction
  · rintro rfl
    exact decode?_encode text

/-- A text starts with whatever its bytes start with. -/
theorem starts_of_encode (h : encode other <+: encode text) : other <+: text := by
  have hlongest := (longestValid_decodeValid (encode text)).longest other h
  rwa [decodeValid_encode] at hlongest

theorem encode_starts (h : other <+: text) : encode other <+: encode text := by
  obtain ⟨rest, rfl⟩ := h
  exact ⟨encode rest, List.flatMap_append.symm⟩

/-! ## Fitting -/

/-- The start of a text is its longest one that has room for its bytes. -/
structure LongestFitting (room : Nat) (text other : List Char) : Prop where
  start : other <+: text
  fits : (encode other).length ≤ room
  longest : ∀ longer, longer <+: text → (encode longer).length ≤ room → longer <+: other

theorem longestFitting_fitting (room : Nat) (text : List Char) :
    LongestFitting room text (fitting room text) := by
  -- the room shrinks by what each character takes
  induction text generalizing room with
  | nil => exact ⟨List.prefix_refl _, Nat.zero_le _, fun _ hlonger _ => hlonger⟩
  | cons c rest ih =>
      rw [fitting]
      split
      · rename_i hroom
        obtain ⟨hstart, hfits, hlongest⟩ := ih (room - c.utf8Size)
        refine ⟨List.cons_prefix_cons.2 ⟨rfl, hstart⟩, ?_, fun longer hlonger hsize => ?_⟩
        · rw [length_encode_cons]
          omega
        · cases longer with
          | nil => exact List.nil_prefix
          | cons d longer =>
              obtain ⟨rfl, hrest⟩ := List.cons_prefix_cons.1 hlonger
              rw [length_encode_cons] at hsize
              exact List.cons_prefix_cons.2 ⟨rfl, hlongest longer hrest (by omega)⟩
      · rename_i hroom
        refine ⟨⟨c :: rest, rfl⟩, Nat.zero_le _, fun longer hlonger hsize => ?_⟩
        cases longer with
        | nil => exact List.nil_prefix
        | cons d longer =>
            obtain ⟨rfl, _⟩ := List.cons_prefix_cons.1 hlonger
            rw [length_encode_cons] at hsize
            omega

theorem fitting_of_fits (hfits : (encode text).length ≤ room) : fitting room text = text :=
  have hlongest := longestFitting_fitting room text
  hlongest.start.eq_of_length_le (hlongest.longest text (List.prefix_refl _) hfits).length_le

/-- A room for one character of any size keeps something of every text that is not empty. -/
theorem fitting_ne_nil (htext : text ≠ []) (hroom : 4 ≤ room) : fitting room text ≠ [] := by
  cases text with
  | nil => contradiction
  | cons c rest =>
      rw [fitting, if_pos (Nat.le_trans c.utf8Size_le_four hroom)]
      exact List.cons_ne_nil _ _

/-! ## Cutting behind a byte -/

/-- The bytes of a text that have room end with a whole character. -/
def EndsWhole (room : Nat) (text : List Char) : Prop :=
  ∃ start, encode start = (encode text).take room

/-- Where the room ends between two characters, the text that fits takes all of it. -/
theorem EndsWhole.encode_fitting (h : EndsWhole room text) :
    encode (fitting room text) = (encode text).take room := by
  obtain ⟨start, hstart⟩ := h
  have hfits : (encode start).length ≤ room := by
    rw [hstart]
    exact List.length_take_le ..
  have hlongest := longestFitting_fitting room text
  have hprefix : start <+: fitting room text :=
    hlongest.longest start (starts_of_encode (hstart ▸ List.take_prefix ..)) hfits
  -- the text that fits begins with all the bytes and takes no more than there are
  have hlower := (encode_starts hprefix).length_le
  have hupper : encode (fitting room text) <+: (encode text).take room :=
    List.prefix_take_iff.2 ⟨encode_starts hlongest.start, hlongest.fits⟩
  rw [hstart] at hlower
  exact hupper.eq_of_length_le hlower

theorem decode?_take_of_endsWhole (h : EndsWhole room text) :
    decode? ((encode text).take room) = some (fitting room text) :=
  decode?_eq_some_iff.2 h.encode_fitting

theorem decode?_take_of_not_endsWhole (h : ¬ EndsWhole room text) :
    decode? ((encode text).take room) = none := by
  cases hdecode : decode? ((encode text).take room) with
  | none => rfl
  | some start => exact absurd ⟨start, decode?_eq_some_iff.1 hdecode⟩ h

/-! ## Zero bytes -/

/-- Only the zero character is encoded with a zero byte. -/
theorem zero_notMem_utf8EncodeChar {c : Char} (h : c ≠ '\x00') :
    0 ∉ String.utf8EncodeChar c := by
  have hzero : c.val.toNat ≠ 0 := fun hzero => h (Char.ext (UInt32.toNat_inj.1 hzero))
  have hbyte {n : Nat} (hpos : 0 < n) (hlt : n < 256) : (0 : UInt8) ≠ UInt8.ofNat n := by
    intro heq
    have := congrArg UInt8.toNat heq
    rw [UInt8.toNat_ofNat_of_lt' hlt] at this
    exact Nat.ne_of_lt hpos this
  unfold String.utf8EncodeChar
  dsimp only
  repeat' split
  all_goals simp only [List.mem_cons, List.not_mem_nil, or_false, not_or]
  · exact hbyte (by omega) (by omega)
  · exact ⟨hbyte (by omega) (by omega), hbyte (by omega) (by omega)⟩
  · exact ⟨hbyte (by omega) (by omega), hbyte (by omega) (by omega), hbyte (by omega) (by omega)⟩
  · exact ⟨hbyte (by omega) (by omega), hbyte (by omega) (by omega), hbyte (by omega) (by omega),
      hbyte (by omega) (by omega)⟩

theorem zero_notMem_encode (h : '\x00' ∉ text) : 0 ∉ encode text := by
  intro hmem
  obtain ⟨c, hc, hbyte⟩ := List.mem_flatMap.1 hmem
  exact zero_notMem_utf8EncodeChar (fun heq => h (heq ▸ hc)) hbyte

end Timeshare.Text

namespace Timeshare.ProcessName

/-- The name that was made from a text shows that text, as far as it fits. -/
theorem text_ofText (text : String) :
    (ofText text).text = String.ofList (Text.fitting nameCapacity text.toList) := by
  rw [ProcessName.text, ofText, Text.decode?_encode]

/-- What was decoded from bytes that fit is kept as a whole. -/
theorem bytes_ofText_ofList {text : List Char} (hfits : (Text.encode text).length ≤ nameCapacity) :
    (ofText (String.ofList text)).bytes = Text.encode text := by
  show Text.encode (Text.fitting nameCapacity (String.ofList text).toList) = _
  rw [String.toList_ofList, Text.fitting_of_fits hfits]

end Timeshare.ProcessName
