import Primitives.Operation

/-!
Texts as rows of bytes. The searches compare characters, while a length counts the bytes of the UTF-8 form. Both views
agree: a row of bytes that is itself the form of a text can only begin where a character begins
(`Text.exists_split_of_firstByte`), and from there on the bytes tell the characters (`Text.encoded_prefix_iff`).
-/
namespace Primitives

namespace Text

/-- The bytes of the UTF-8 form of a row of characters. -/
def encoded (cs : List Char) : List UInt8 := cs.flatMap String.utf8EncodeChar

/-- The bytes of the UTF-8 form of a text. -/
def bytes (s : String) : List UInt8 := s.toByteArray.data.toList

/-! ### Rows of characters -/

@[simp] theorem encoded_nil : encoded [] = [] := rfl

@[simp] theorem encoded_cons (c : Char) (cs : List Char) : encoded (c :: cs) = String.utf8EncodeChar c ++ encoded cs := rfl

@[simp] theorem encoded_append (cs ds : List Char) : encoded (cs ++ ds) = encoded cs ++ encoded ds := List.flatMap_append

theorem toByteArray_encoded (cs : List Char) : (encoded cs).toByteArray = cs.utf8Encode := rfl

/-- The bytes tell the characters: what begins with the form of some characters begins with these. -/
theorem encoded_prefix_iff {cs ds : List Char} : encoded cs <+: encoded ds ↔ cs <+: ds := by
  constructor
  · rintro ⟨rest, whole⟩
    refine List.isPrefix_of_utf8Encode_append_eq_utf8Encode rest.toByteArray ?_
    rw [← toByteArray_encoded, ← toByteArray_encoded, ← whole, List.toByteArray_append]
  · rintro ⟨rest, rfl⟩
    exact ⟨encoded rest, (encoded_append cs rest).symm⟩

theorem encoded_injective : Function.Injective encoded := by
  intro cs ds same
  have front : cs <+: ds := encoded_prefix_iff.mp (same ▸ List.prefix_refl _)
  have back : ds <+: cs := encoded_prefix_iff.mp (same ▸ List.prefix_refl _)
  exact front.eq_of_length_le back.length_le

/-- A byte that can begin a character begins one: the bytes in front of it are the form of the characters in front. -/
theorem exists_split_of_firstByte {cs : List Char} {front back : List UInt8} {b : UInt8} (first : b.IsUTF8FirstByte)
    (parted : encoded cs = front ++ b :: back) :
    ∃ us vs, cs = us ++ vs ∧ encoded us = front ∧ encoded vs = b :: back := by
  induction cs generalizing front with
  | nil => simp at parted
  | cons c cs ih =>
    rw [encoded_cons, List.append_eq_append_iff] at parted
    rcases parted with ⟨later, rfl, parted⟩ | ⟨within, character, rest⟩
    · obtain ⟨us, vs, rfl, before, after⟩ := ih parted
      exact ⟨c :: us, vs, rfl, by rw [encoded_cons, before], after⟩
    · cases within with
      | nil =>
        -- the byte begins the next character
        exact ⟨[c], cs, rfl, by simpa using character, by simpa using rest.symm⟩
      | cons d within =>
        obtain ⟨rfl, rest⟩ := List.cons.inj rest
        -- a byte inside of a character begins it only if it is the first one
        have place : (String.utf8EncodeChar c)[front.length]? = some b := by simp [character]
        obtain ⟨inside, isThere⟩ := List.getElem?_eq_some_iff.mp place
        have atStart : front.length = 0 := UInt8.isUTF8FirstByte_getElem_utf8EncodeChar.mp (isThere ▸ first)
        obtain rfl := List.length_eq_zero_iff.mp atStart
        refine ⟨[], c :: cs, rfl, rfl, ?_⟩
        rw [encoded_cons, character, rest]
        simp

/-- The form of a character begins with a byte that can begin one. -/
theorem exists_firstByte (c : Char) :
    ∃ b rest, String.utf8EncodeChar c = b :: rest ∧ b.IsUTF8FirstByte := by
  cases form : String.utf8EncodeChar c with
  | nil => exact absurd form String.utf8EncodeChar_ne_nil
  | cons b rest =>
    have first : (String.utf8EncodeChar c)[0]? = some b := by rw [form]; rfl
    obtain ⟨_, isFirst⟩ := List.getElem?_eq_some_iff.mp first
    exact ⟨b, rest, rfl, isFirst ▸ UInt8.isUTF8FirstByte_getElem_utf8EncodeChar.mpr rfl⟩

/-- The form of some characters stands in a row of bytes only where these characters begin. -/
theorem exists_split_of_encoded {ds cs : List Char} {front back : List UInt8} (given : ds ≠ [])
    (parted : encoded cs = front ++ (encoded ds ++ back)) :
    ∃ us vs, cs = us ++ vs ∧ encoded us = front ∧ encoded vs = encoded ds ++ back := by
  obtain ⟨d, ds, rfl⟩ := List.exists_cons_of_ne_nil given
  obtain ⟨b, rest, form, first⟩ := exists_firstByte d
  rw [encoded_cons, form, List.cons_append, List.cons_append] at parted ⊢
  exact exists_split_of_firstByte first parted

theorem encoded_infix_iff {cs ds : List Char} : encoded ds <:+: encoded cs ↔ ds <:+: cs := by
  constructor
  · rintro ⟨front, back, whole⟩
    by_cases given : ds = []
    · exact given ▸ List.nil_infix
    · obtain ⟨us, vs, rfl, -, after⟩ := exists_split_of_encoded given (whole.symm.trans (List.append_assoc _ _ _))
      have begins : ds <+: vs := encoded_prefix_iff.mp ⟨back, after.symm⟩
      exact begins.isInfix.trans (List.suffix_append us vs).isInfix
  · rintro ⟨us, vs, rfl⟩
    exact ⟨encoded us, encoded vs, by simp⟩

theorem encoded_suffix_iff {cs ds : List Char} : encoded ds <:+ encoded cs ↔ ds <:+ cs := by
  constructor
  · rintro ⟨front, whole⟩
    by_cases given : ds = []
    · exact given ▸ List.nil_suffix
    · have parted : encoded cs = front ++ (encoded ds ++ []) := by simpa using whole.symm
      obtain ⟨us, vs, rfl, -, after⟩ := exists_split_of_encoded given parted
      have same : vs = ds := encoded_injective (by simpa using after)
      exact same ▸ List.suffix_append us vs
  · rintro ⟨us, rfl⟩
    exact ⟨encoded us, by simp⟩

/-! ### Texts -/

theorem bytes_eq_encoded (s : String) : bytes s = encoded s.toList := by
  rw [bytes, ← String.utf8Encode_toList, ← toByteArray_encoded, List.data_toByteArray, List.toList_toArray]

theorem length_bytes (s : String) : (bytes s).length = byteLength s := by
  rw [bytes, Array.length_toList, byteLength, ← String.size_toByteArray, ByteArray.size]

theorem bytes_injective : Function.Injective bytes := by
  intro s t same
  rw [bytes_eq_encoded, bytes_eq_encoded] at same
  exact String.toList_inj.mp (encoded_injective same)

/-- A block occurs in a row of characters if the row can be parted around it. -/
theorem occursIn_iff {block cs : List Char} : occursIn block cs = true ↔ block <:+: cs := by
  induction cs with
  | nil => simp [occursIn]
  | cons c rest ih => rw [occursIn, Bool.or_eq_true, List.isPrefixOf_iff_prefix, ih, List.infix_cons_iff]

variable (s t : String)

theorem startsWith_iff : startsWith s t = true ↔ t.toList <+: s.toList := List.isPrefixOf_iff_prefix

theorem endsWith_iff : endsWith s t = true ↔ t.toList <:+ s.toList := List.isSuffixOf_iff_suffix

theorem contains_iff : contains s t = true ↔ t.toList <:+: s.toList := occursIn_iff

theorem prefix_iff_exists : t.toList <+: s.toList ↔ ∃ v, s = t ++ v := by
  constructor
  · rintro ⟨rest, whole⟩
    exact ⟨String.ofList rest, String.toList_inj.mp (by simp [whole])⟩
  · rintro ⟨v, rfl⟩
    exact ⟨v.toList, by simp⟩

theorem suffix_iff_exists : t.toList <:+ s.toList ↔ ∃ u, s = u ++ t := by
  constructor
  · rintro ⟨front, whole⟩
    exact ⟨String.ofList front, String.toList_inj.mp (by simp [whole])⟩
  · rintro ⟨u, rfl⟩
    exact ⟨u.toList, by simp⟩

theorem infix_iff_exists : t.toList <:+: s.toList ↔ ∃ u v, s = u ++ t ++ v := by
  constructor
  · rintro ⟨front, rest, whole⟩
    exact ⟨String.ofList front, String.ofList rest, String.toList_inj.mp (by simp [← whole])⟩
  · rintro ⟨u, v, rfl⟩
    exact ⟨u.toList, v.toList, by simp⟩

variable {s t}

/-- A block of bytes is no longer than the row it stands in, and is the whole row if it is as long. -/
theorem length_le_of_bytes_infix (block : bytes t <:+: bytes s) :
    (bytes t).length ≤ (bytes s).length ∧ ((bytes t).length = (bytes s).length → s = t) :=
  ⟨block.length_le, fun same => bytes_injective (block.eq_of_length same).symm⟩

/-- The searches agree with the bytes that a length counts. A text starts with, ends with or contains another one
    exactly when it can be parted around that one, and exactly when the bytes of its UTF-8 form can. So it is longer,
    or the two texts are the same. -/
theorem searches_match_bytes (s t : String) :
    ∃ starts ends occurs : Bool,
      Operation.apply .startsWith [.text s, .text t] = .ok (.boolean starts) ∧
      Operation.apply .endsWith [.text s, .text t] = .ok (.boolean ends) ∧
      Operation.apply .contains [.text s, .text t] = .ok (.boolean occurs) ∧
      Operation.apply .byteLength [.text s] = .ok (.integer (bytes s).length) ∧
      Operation.apply .byteLength [.text t] = .ok (.integer (bytes t).length) ∧
      ((starts = true ↔ ∃ v, s = t ++ v) ∧ (starts = true ↔ bytes t <+: bytes s)) ∧
      ((ends = true ↔ ∃ u, s = u ++ t) ∧ (ends = true ↔ bytes t <:+ bytes s)) ∧
      ((occurs = true ↔ ∃ u v, s = u ++ t ++ v) ∧ (occurs = true ↔ bytes t <:+: bytes s)) ∧
      (starts = true ∨ ends = true ∨ occurs = true →
        (bytes t).length ≤ (bytes s).length ∧ ((bytes t).length = (bytes s).length → s = t)) := by
  have starts : startsWith s t = true ↔ bytes t <+: bytes s := by
    rw [startsWith_iff, bytes_eq_encoded, bytes_eq_encoded, encoded_prefix_iff]
  have ends : endsWith s t = true ↔ bytes t <:+ bytes s := by
    rw [endsWith_iff, bytes_eq_encoded, bytes_eq_encoded, encoded_suffix_iff]
  have occurs : contains s t = true ↔ bytes t <:+: bytes s := by
    rw [contains_iff, bytes_eq_encoded, bytes_eq_encoded, encoded_infix_iff]
  refine ⟨startsWith s t, endsWith s t, contains s t, rfl, rfl, rfl, ?_, ?_, ⟨?_, starts⟩, ⟨?_, ends⟩, ⟨?_, occurs⟩, ?_⟩
  · rw [length_bytes]
    rfl
  · rw [length_bytes]
    rfl
  · rw [startsWith_iff, prefix_iff_exists]
  · rw [endsWith_iff, suffix_iff_exists]
  · rw [contains_iff, infix_iff_exists]
  · rintro (found | found | found)
    · exact length_le_of_bytes_infix (starts.mp found).isInfix
    · exact length_le_of_bytes_infix (ends.mp found).isInfix
    · exact length_le_of_bytes_infix (occurs.mp found)

end Text

end Primitives
