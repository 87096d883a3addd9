import Timeshare.Proofs.Message
import Timeshare.Proofs.Text.Utf8
import Timeshare.User.WordRecord

/-!
# What a numbered word keeps of a text

A numbered word goes through a message unchanged.  Its text is cut behind a fixed number of
bytes, wherever that is.  So the word that is read back is the longest start of the text that
has room if the cut falls between two characters, and it is empty if the cut falls into one.
-/

namespace Timeshare.User.WordRecord

variable {sequence : UInt32} {word : String}

/-- The bytes in front of the first zero are those that had room. -/
theorem takeWhile_new (hzero : '\x00' ∉ word.toList) :
    (new sequence word).bytes.toList.takeWhile (· != 0)
      = (Text.encode word.toList).take (wordCapacity - 1) := by
  have hnonzero : ∀ b ∈ (Text.encode word.toList).take (wordCapacity - 1), (b != 0) = true := by
    intro b hb
    have hne : b ≠ 0 := fun heq => Text.zero_notMem_encode hzero (heq ▸ List.mem_of_mem_take hb)
    simpa using hne
  -- there is room for at least one zero behind the word
  obtain ⟨count, hbytes⟩ : ∃ count, (new sequence word).bytes.toList
      = (Text.encode word.toList).take (wordCapacity - 1) ++ 0 :: List.replicate count 0 := by
    have hlength := List.length_take_le (wordCapacity - 1) (Text.encode word.toList)
    refine ⟨wordCapacity - 1 - ((Text.encode word.toList).take (wordCapacity - 1)).length, ?_⟩
    show ((Text.encode word.toList).take (wordCapacity - 1)
      ++ List.replicate wordCapacity 0).take wordCapacity = _
    rw [List.take_append, List.take_replicate, List.take_of_length_le (by omega),
      ← List.replicate_succ]
    congr 2
    simp only [wordCapacity] at hlength ⊢
    omega
  rw [hbytes, List.takeWhile_append_of_pos hnonzero, List.takeWhile_cons_of_neg (by decide),
    List.append_nil]

/-- The payload of a numbered word is the number, the bytes of the word, and zeros. -/
theorem toList_data_toMessage (r : WordRecord) :
    r.toMessage.data.toList
      = Text.littleEndian 4 r.sequence.toNat ++ (r.bytes.toList
        ++ List.replicate (payloadSize - 4 - wordCapacity) 0) := by
  have hnumber : (Text.littleEndian 4 r.sequence.toNat).length = 4 := Text.length_littleEndian ..
  have hbytes : r.bytes.toList.length = wordCapacity := Vector.length_toList
  show (Payload.ofBytes _).toList = _
  rw [Payload.toList_ofBytes, List.append_assoc, List.take_append, List.take_append, hnumber, hbytes,
    List.take_of_length_le (by rw [hnumber]; decide),
    List.take_of_length_le (by rw [hbytes]; decide), List.take_replicate]
  rfl

/-- The bytes of the word that a message carries lie behind the number. -/
theorem toList_bytes_ofMessage (m : Message) :
    (ofMessage m).bytes.toList = (m.data.toList.drop 4).take wordCapacity := by
  apply List.ext_getElem
  · rw [Vector.length_toList, List.length_take, List.length_drop, Vector.length_toList]
    rfl
  · intro i h h'
    simp only [ofMessage, Vector.getElem_toList, Vector.getElem_ofFn, List.getElem_take,
      List.getElem_drop]
    rfl

/-- A numbered word is read back from the message that carries it. -/
theorem ofMessage_toMessage (r : WordRecord) : ofMessage r.toMessage = r := by
  have hdata := r.toList_data_toMessage
  have hnumber : (Text.littleEndian 4 r.sequence.toNat).length = 4 := Text.length_littleEndian ..
  have hsequence : (ofMessage r.toMessage).sequence = r.sequence := by
    rw [ofMessage, hdata, List.take_left' hnumber, Text.ofLittleEndian_littleEndian_four,
      UInt32.ofNat_toNat]
  have hbytes : (ofMessage r.toMessage).bytes = r.bytes := by
    apply Vector.toList_inj.1
    rw [toList_bytes_ofMessage, hdata, List.drop_left' hnumber,
      List.take_left' Vector.length_toList]
  generalize ofMessage r.toMessage = r' at hsequence hbytes
  cases r
  cases r'
  exact congrArg₂ WordRecord.mk hsequence hbytes

theorem word_new (hzero : '\x00' ∉ word.toList) :
    (new sequence word).word
      = (Text.decode? ((Text.encode word.toList).take (wordCapacity - 1))).elim ""
          String.ofList := by
  rw [WordRecord.word, takeWhile_new hzero]
  cases Text.decode? ((Text.encode word.toList).take (wordCapacity - 1)) <;> rfl

/-- Where the room ends between two characters, the longest start that has room is read back. -/
theorem word_of_endsWhole (hzero : '\x00' ∉ word.toList)
    (hwhole : Text.EndsWhole (wordCapacity - 1) word.toList) :
    (new sequence word).word = String.ofList (Text.fitting (wordCapacity - 1) word.toList) := by
  rw [word_new hzero, Text.decode?_take_of_endsWhole hwhole]
  rfl

/-- Where the room ends within a character, nothing is read back. -/
theorem word_of_not_endsWhole (hzero : '\x00' ∉ word.toList)
    (hcut : ¬ Text.EndsWhole (wordCapacity - 1) word.toList) : (new sequence word).word = "" := by
  rw [word_new hzero, Text.decode?_take_of_not_endsWhole hcut]
  rfl

/-- A numbered word goes through a message with its number and all its bytes.  What is read of a
text without zeros is its longest start that has room exactly if the room ends between two
characters; if it ends within one, nothing is read at all. -/
theorem word_kept_iff_endsWhole (sequence : UInt32) (word : String)
    (hzero : '\x00' ∉ word.toList) :
    ofMessage (new sequence word).toMessage = new sequence word ∧
      (new sequence word).sequence = sequence ∧
      ((∃ text, Text.LongestFitting (wordCapacity - 1) word.toList text ∧
          (new sequence word).word = String.ofList text) ↔
        Text.EndsWhole (wordCapacity - 1) word.toList) ∧
      (¬ Text.EndsWhole (wordCapacity - 1) word.toList → (new sequence word).word = "") := by
  refine ⟨ofMessage_toMessage _, rfl, ⟨?_, fun hwhole => ?_⟩, word_of_not_endsWhole hzero⟩
  · rintro ⟨text, hlongest, hword⟩
    by_contra hcut
    -- something of the text has room, but nothing of it was read
    rw [word_of_not_endsWhole hzero hcut] at hword
    obtain rfl : text = [] := by
      simpa using congrArg String.toList hword.symm
    have hnothing : Text.fitting (wordCapacity - 1) word.toList = [] := by
      have hfitting := Text.longestFitting_fitting (wordCapacity - 1) word.toList
      exact List.prefix_nil.1 (hlongest.longest _ hfitting.start hfitting.fits)
    have htext : word.toList ≠ [] := by
      intro hempty
      rw [hempty] at hcut
      exact hcut ⟨[], rfl⟩
    exact Text.fitting_ne_nil htext (by decide) hnothing
  · exact ⟨_, Text.longestFitting_fitting _ _, word_of_endsWhole hzero hwhole⟩

/-- Eleven characters of two bytes and one of a single byte take all the room; the last
character is left out. -/
theorem word_kept_of_two_byte_characters :
    '\x00' ∉ "éééééééééééaé".toList ∧
      Text.EndsWhole (wordCapacity - 1) "éééééééééééaé".toList ∧
      ∃ text, Text.LongestFitting (wordCapacity - 1) "éééééééééééaé".toList text ∧
        (new 7 "éééééééééééaé").word = String.ofList text := by
  have hzero : '\x00' ∉ "éééééééééééaé".toList := by decide
  have hwhole : Text.EndsWhole (wordCapacity - 1) "éééééééééééaé".toList :=
    ⟨"éééééééééééa".toList, by decide⟩
  exact ⟨hzero, hwhole, (word_kept_iff_endsWhole 7 _ hzero).2.2.1.2 hwhole⟩

/-- Twenty-two characters have room in front of one of two bytes, but none is read back. -/
theorem word_lost_within_character :
    '\x00' ∉ "xxxxxxxxxxxxxxxxxxxxxxé".toList ∧
      Text.LongestFitting (wordCapacity - 1) "xxxxxxxxxxxxxxxxxxxxxxé".toList
        "xxxxxxxxxxxxxxxxxxxxxx".toList ∧
      (new 4 "xxxxxxxxxxxxxxxxxxxxxxé").word = "" := by
  have hfitting : Text.fitting (wordCapacity - 1) "xxxxxxxxxxxxxxxxxxxxxxé".toList
      = "xxxxxxxxxxxxxxxxxxxxxx".toList := by decide
  have hcut : ¬ Text.EndsWhole (wordCapacity - 1) "xxxxxxxxxxxxxxxxxxxxxxé".toList := by
    intro hwhole
    have hbytes := hwhole.encode_fitting
    rw [hfitting] at hbytes
    exact absurd hbytes (by decide)
  have hzero : '\x00' ∉ "xxxxxxxxxxxxxxxxxxxxxxé".toList := by decide
  exact ⟨hzero, hfitting ▸ Text.longestFitting_fitting _ _, word_of_not_endsWhole hzero hcut⟩

end Timeshare.User.WordRecord
