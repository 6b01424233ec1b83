/-
Parsing.Proofs.Lines — the lines of a text, and those of its bytes.

A text is cut between two characters of which the first is a line feed
(`Text.lines`); so what stands behind the last line feed is a line if it is
not empty.  Bytes are cut in the same way (`cutLines_eq_splitBy`), and as
the byte of a line feed is part of no other character, the lines of a
text's bytes are the bytes of its lines (`decode_cutLines_encode`).  Where
the bytes of a text end with a line feed, what follows them is cut as if it
stood alone (`cutLines_encode_append`).  Of any bytes, a line has a line feed at
its end or nowhere, and so has the text that it writes.
-/
import Mathlib
import Parsing.Text.Line

namespace Parsing.Text

/-! ## Cutting behind an element -/

section SplitBy

variable {α : Type} {goesOn : α → Bool} {a : α} {as : List α}

theorem splitBy_cons_stop (h : goesOn a = false) :
    (a :: as).splitBy (fun x _ => goesOn x) = [a] :: as.splitBy (fun x _ => goesOn x) := by
  have hsplit := List.splitBy_append (r := fun x _ => goesOn x) (l := [a]) (m := as)
    (by simp [h])
  rw [List.splitBy_of_isChain (by simp) (List.isChain_singleton a)] at hsplit
  exact hsplit

theorem splitBy_singleton : [a].splitBy (fun x _ => goesOn x) = [[a]] :=
  List.splitBy_of_isChain (by simp) (List.isChain_singleton a)

/-- Where nothing is cut behind it, an element joins the first piece. -/
theorem splitBy_cons_goesOn {piece : List α} {pieces : List (List α)} (h : goesOn a = true)
    (has : as.splitBy (fun x _ => goesOn x) = piece :: pieces) :
    (a :: as).splitBy (fun x _ => goesOn x) = (a :: piece) :: pieces := by
  obtain ⟨hflatten, hnil, hchain, hcuts⟩ := List.splitBy_eq_iff.1 has
  simp only [List.mem_cons, not_or] at hnil
  refine List.splitBy_eq_iff.2 ⟨by rw [hflatten]; simp, by simpa using hnil.2, ?_, ?_⟩
  · rintro m hm
    rcases List.mem_cons.1 hm with rfl | hm
    · exact List.isChain_cons.2 ⟨fun _ _ => h, hchain _ (List.mem_cons_self ..)⟩
    · exact hchain m (List.mem_cons_of_mem _ hm)
  · obtain ⟨hfirst, hrest⟩ := List.isChain_cons.1 hcuts
    refine List.isChain_cons.2 ⟨fun next hnext => ?_, hrest⟩
    obtain ⟨hpiece, hne, hcut⟩ := hfirst next hnext
    exact ⟨by simp, hne, by rwa [List.getLast_cons hpiece]⟩

end SplitBy

/-! ## Lines -/

/-- The lines of a text: it is cut behind every line feed. -/
def lines (text : String) : List String :=
  (text.toList.splitBy fun c _ => c != '\n').map String.ofList

theorem cutLines_eq_splitBy (bytes : List UInt8) :
    cutLines bytes = bytes.splitBy fun byte _ => byte != lineFeed := by
  induction bytes with
  | nil => rfl
  | cons byte bytes ih =>
    rw [cutLines]
    split
    · rename_i h
      rw [splitBy_cons_stop (by simp [h]), ih]
    · rename_i h
      split
      · rename_i hnone
        have hbytes : bytes = [] := List.splitBy_eq_nil.1 (ih ▸ hnone)
        rw [hbytes, splitBy_singleton]
      · rename_i hsome
        rw [splitBy_cons_goesOn (by simpa using h) (ih ▸ hsome)]

/-! ## The bytes of a text -/

theorem encode_eq_flatMap (text : String) :
    encode text = text.toList.flatMap String.utf8EncodeChar := by
  rw [encode, String.toUTF8_eq_toByteArray, ← String.utf8Encode_toList, List.utf8Encode,
    List.toList_data_toByteArray]

theorem decode?_encode (text : String) : decode? (encode text) = some text := by
  have hbytes : (⟨(encode text).toArray⟩ : ByteArray) = text.toByteArray := by
    simp [encode, String.toUTF8_eq_toByteArray]
  rw [decode?, hbytes, String.fromUTF8?, dif_pos text.isValidUTF8]
  rfl

/-- No other character has the byte of a line feed: it is written by itself,
and every character beyond ASCII by bytes of at least 128. -/
theorem lineFeed_notMem_utf8EncodeChar {c : Char} (h : c ≠ '\n') :
    lineFeed ∉ String.utf8EncodeChar c := by
  have hn : c.val.toNat ≠ 10 := fun hc => h (Char.ext (UInt32.toNat_inj.1 hc))
  have hbyte : ∀ n < 256, n ≠ 10 → lineFeed ≠ UInt8.ofNat n := by
    intro n hlt hne heq
    have hnat := congrArg UInt8.toNat heq
    simp [lineFeed] at hnat
    omega
  fun_cases String.utf8EncodeChar c with
  | case1 v hv =>
    simp only [List.mem_singleton]
    exact hbyte v (by omega) hn
  | case2 v =>
    simp only [List.mem_cons, List.not_mem_nil, or_false, not_or]
    exact ⟨hbyte _ (by omega) (by omega), hbyte _ (by omega) (by omega)⟩
  | case3 v =>
    simp only [List.mem_cons, List.not_mem_nil, or_false, not_or]
    exact ⟨hbyte _ (by omega) (by omega), hbyte _ (by omega) (by omega),
      hbyte _ (by omega) (by omega)⟩
  | case4 v =>
    simp only [List.mem_cons, List.not_mem_nil, or_false, not_or]
    exact ⟨hbyte _ (by omega) (by omega), hbyte _ (by omega) (by omega),
      hbyte _ (by omega) (by omega), hbyte _ (by omega) (by omega)⟩

/-! ## The lines of those bytes -/

theorem cutLines_lineFeed (bytes : List UInt8) :
    cutLines (lineFeed :: bytes) = [lineFeed] :: cutLines bytes := by
  rw [cutLines, if_pos rfl]

/-- Bytes without a line feed join the line that follows. -/
theorem cutLines_append_of_notMem {block bytes line : List UInt8} {rest : List (List UInt8)}
    (hblock : lineFeed ∉ block) (h : cutLines bytes = line :: rest) :
    cutLines (block ++ bytes) = (block ++ line) :: rest := by
  induction block with
  | nil => exact h
  | cons byte block ih =>
    simp only [List.mem_cons, not_or] at hblock
    rw [List.cons_append, cutLines, if_neg (Ne.symm hblock.1), ih hblock.2]
    rfl

theorem cutLines_of_notMem {block : List UInt8} (hblock : lineFeed ∉ block) (hne : block ≠ []) :
    cutLines block = [block] := by
  obtain ⟨front, byte, rfl⟩ : ∃ front byte, block = front ++ [byte] :=
    ⟨_, _, (List.dropLast_append_getLast hne).symm⟩
  simp only [List.mem_append, List.mem_singleton, not_or] at hblock
  refine cutLines_append_of_notMem hblock.1 ?_
  rw [cutLines, if_neg (Ne.symm hblock.2)]
  rfl

/-- By induction on the characters: each of them cuts the bytes where it
cuts the text. -/
theorem cutLines_flatMap (chars : List Char) :
    cutLines (chars.flatMap String.utf8EncodeChar) =
      (chars.splitBy fun c _ => c != '\n').map (·.flatMap String.utf8EncodeChar) := by
  induction chars with
  | nil => rfl
  | cons c chars ih =>
    rw [List.flatMap_cons]
    by_cases hc : c = '\n'
    · rw [splitBy_cons_stop (by simp [hc]), List.map_cons, ← ih, hc]
      exact cutLines_lineFeed _
    · have hblock := lineFeed_notMem_utf8EncodeChar hc
      cases hsplit : chars.splitBy (fun c _ => c != '\n') with
      | nil =>
        obtain rfl : chars = [] := List.splitBy_eq_nil.1 hsplit
        rw [splitBy_singleton]
        simpa using cutLines_of_notMem hblock String.utf8EncodeChar_ne_nil
      | cons piece pieces =>
        rw [hsplit] at ih
        rw [splitBy_cons_goesOn (by simpa using hc) hsplit, cutLines_append_of_notMem hblock ih]
        simp

/-- **The lines of a text's bytes are its lines.** -/
theorem decode_cutLines_encode (text : String) :
    (cutLines (encode text)).map decode? = (lines text).map some := by
  have hpiece : ∀ piece : List Char,
      decode? (piece.flatMap String.utf8EncodeChar) = some (String.ofList piece) := by
    intro piece
    rw [← decode?_encode, encode_eq_flatMap, String.toList_ofList]
  rw [encode_eq_flatMap, cutLines_flatMap, lines, List.map_map, List.map_map]
  exact List.map_congr_left fun piece _ => hpiece piece

/-- Behind a text that ends with a line feed, if it is not empty, lines start
anew. -/
theorem cutLines_encode_append {text : String} (h : ∀ c ∈ text.toList.getLast?, c = '\n')
    (bytes : List UInt8) :
    cutLines (encode text ++ bytes) = cutLines (encode text) ++ cutLines bytes := by
  have hlast : ∀ byte ∈ (encode text).getLast?, byte = lineFeed := by
    rw [encode_eq_flatMap]
    cases hchars : text.toList.getLast? with
    | none => simp [List.getLast?_eq_none_iff.1 hchars]
    | some c =>
      obtain rfl := h c hchars
      obtain ⟨front, hfront⟩ := List.getLast?_eq_some_iff.1 hchars
      rw [hfront, List.flatMap_append]
      simp [String.utf8EncodeChar, lineFeed]
  simp only [cutLines_eq_splitBy]
  refine List.splitBy_append fun byte hbyte _ _ => ?_
  simp [hlast byte hbyte]

/-! ## Line feeds of a line -/

/-- A line of bytes has a line feed at its end or nowhere. -/
theorem lineFeed_notMem_dropLast {bytes line : List UInt8} (h : line ∈ cutLines bytes) :
    lineFeed ∉ line.dropLast := by
  induction bytes generalizing line with
  | nil => simp [cutLines] at h
  | cons byte bytes ih =>
    rw [cutLines] at h
    split at h
    · cases List.mem_cons.1 h with
      | inl hfirst => simp [hfirst]
      | inr hrest => exact ih hrest
    · rename_i hbyte
      split at h
      · simp [List.mem_singleton.1 h]
      · rename_i first lines hlines
        rw [hlines] at ih
        cases List.mem_cons.1 h with
        | inl hfirst =>
          rw [hfirst]
          have hdrop := ih (List.mem_cons_self ..)
          cases first with
          | nil => simp
          | cons next first => simpa [Ne.symm hbyte] using hdrop
        | inr hrest => exact ih (List.mem_cons_of_mem _ hrest)

theorem encode_of_decode? {bytes : List UInt8} {text : String} (h : decode? bytes = some text) :
    encode text = bytes := by
  rw [decode?, String.fromUTF8?] at h
  split at h
  · obtain rfl := Option.some.inj h
    simp [encode, String.toUTF8_eq_toByteArray, String.fromUTF8]
  · simp at h

/-- So has its text. -/
theorem lineFeed_notMem_dropLast_text {bytes line : List UInt8} {text : String}
    (hline : line ∈ cutLines bytes) (h : decode? line = some text) :
    '\n' ∉ text.toList.dropLast := by
  have hbytes := lineFeed_notMem_dropLast hline
  rw [← encode_of_decode? h, encode_eq_flatMap] at hbytes
  cases hchars : text.toList.getLast? with
  | none => simp [List.getLast?_eq_none_iff.1 hchars]
  | some c =>
    obtain ⟨front, hfront⟩ := List.getLast?_eq_some_iff.1 hchars
    rw [hfront] at hbytes ⊢
    rw [List.dropLast_concat]
    intro hmem
    refine hbytes ?_
    rw [List.flatMap_append, List.flatMap_singleton,
      List.dropLast_append_of_ne_nil String.utf8EncodeChar_ne_nil]
    refine List.mem_append_left _ (List.mem_flatMap.2 ⟨'\n', hmem, ?_⟩)
    decide
end Parsing.Text
