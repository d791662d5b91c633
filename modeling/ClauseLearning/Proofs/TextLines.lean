import ClauseLearning.Text.Blank
import ClauseLearning.Text.Lines

namespace ClauseLearning.Text

theorem linesFrom_append (front bytes : ByteArray) (start i : Nat) :
    linesFrom (front ++ bytes) (front.size + start) (front.size + i) = linesFrom bytes start i := by
  have line (i : Nat) : (front ++ bytes).extract (front.size + start) (front.size + i) =
      bytes.extract start i := ByteArray.extract_append_size_add
  fun_induction linesFrom bytes start i with
  | case1 start i inside feed ih =>
    have inside' : front.size + i < (front ++ bytes).size := by simpa using inside
    have same : (front ++ bytes)[front.size + i] = lineFeed := by
      simpa [ByteArray.getElem_append_right] using feed
    rw [linesFrom, dif_pos inside', if_pos same, line, ← ih fun _ =>
      ByteArray.extract_append_size_add]
    rfl
  | case2 start i inside other ih =>
    have inside' : front.size + i < (front ++ bytes).size := by simpa using inside
    have same : (front ++ bytes)[front.size + i] ≠ lineFeed := by
      simpa [ByteArray.getElem_append_right] using other
    rw [linesFrom, dif_pos inside', if_neg same]
    exact ih line
  | case3 start i outside before =>
    rw [linesFrom, dif_neg (by simpa using outside), if_pos (by omega), line]
  | case4 start i outside empty =>
    rw [linesFrom, dif_neg (by simpa using outside), if_neg (by omega)]

theorem linesFrom_skip (bytes : ByteArray) (start i : Nat) {j : Nat} (le : i ≤ j)
    (inside : j ≤ bytes.size)
    (other : ∀ k (inside : k < bytes.size), i ≤ k → k < j → bytes[k] ≠ lineFeed) :
    linesFrom bytes start i = linesFrom bytes start j := by
  obtain ⟨d, rfl⟩ := Nat.exists_eq_add_of_le le
  induction d generalizing i with
  | zero => rfl
  | succ d ih =>
    rw [linesFrom, dif_pos (by omega), if_neg (other i (by omega) (Nat.le_refl i) (by omega)),
      ih (i + 1) (by omega) (by omega) fun k inside' after before =>
        other k inside' (by omega) (by omega)]
    congr 1
    omega

theorem getElem_ne_lineFeed {line : ByteArray} (inLine : lineFeed ∉ line.data) (rest : ByteArray)
    (k : Nat) (inside : k < (line ++ rest).size) (before : k < line.size) :
    (line ++ rest)[k] ≠ lineFeed := by
  rw [ByteArray.getElem_append_left before]
  exact fun feed => inLine (feed ▸ Array.getElem_mem _)

theorem lines_of_not_mem {line : ByteArray} (inLine : lineFeed ∉ line.data)
    (nonempty : line.size ≠ 0) : lines line = [decodeLine line] := by
  have skip := linesFrom_skip line 0 0 (Nat.zero_le _) (Nat.le_refl line.size)
    fun k inside _ _ feed => inLine (feed ▸ Array.getElem_mem _)
  rw [lines, skip, linesFrom, dif_neg (Nat.lt_irrefl _), ByteArray.extract_zero_size,
    if_pos (Nat.pos_of_ne_zero nonempty)]

theorem lines_append {line : ByteArray} (inLine : lineFeed ∉ line.data) (rest : ByteArray) :
    lines (line ++ ([lineFeed].toByteArray ++ rest)) = decodeLine line :: lines rest := by
  let front := line ++ [lineFeed].toByteArray
  have skip := linesFrom_skip (line ++ ([lineFeed].toByteArray ++ rest)) 0 0
    (Nat.zero_le line.size) (by simp) fun k inside _ => getElem_ne_lineFeed inLine _ k inside
  have later := linesFrom_append front rest 0 0
  have one : [lineFeed].toByteArray.size = 1 := List.size_toByteArray
  have inside : line.size < (line ++ ([lineFeed].toByteArray ++ rest)).size := by
    rw [ByteArray.size_append, ByteArray.size_append, one]
    omega
  have feed : (line ++ ([lineFeed].toByteArray ++ rest))[line.size] = lineFeed := by
    rw [ByteArray.getElem_append_right (Nat.le_refl _), ByteArray.getElem_append_left (by simp)]
    simp
  rw [lines, skip, linesFrom, dif_pos inside, if_pos feed,
    ByteArray.extract_append_eq_left rfl]
  rw [ByteArray.append_assoc, Nat.add_zero, ByteArray.size_append] at later
  exact congrArg _ later

theorem decodeLine_utf8Encode (cs : List Char) : decodeLine cs.utf8Encode = some cs := by
  have text : cs.utf8Encode = (String.ofList cs).toByteArray := String.toByteArray_ofList.symm
  have decoded : String.fromUTF8? (String.ofList cs).toByteArray = some (String.ofList cs) :=
    dif_pos (String.ofList cs).isValidUTF8
  rw [decodeLine, text, decoded, Option.map_some, String.toList_ofList]

theorem eq_lineFeed_of_mem {c : Char} (member : lineFeed ∈ String.utf8EncodeChar c) : c = '\n' := by
  -- The byte is no part of a longer encoding, so the encoding starts with that of the line feed.
  obtain ⟨i, inside, feed⟩ := List.getElem_of_mem member
  obtain rfl : i = 0 := by
    have first : (String.utf8EncodeChar c)[i].IsUTF8FirstByte ↔ i = 0 :=
      UInt8.isUTF8FirstByte_getElem_utf8EncodeChar
    exact first.1 (by rw [feed]; decide)
  obtain ⟨first, tail, bytes⟩ := List.exists_cons_of_ne_nil (String.utf8EncodeChar_ne_nil (c := c))
  obtain rfl : first = lineFeed := by simpa [bytes] using feed
  have parts : ['\n'].utf8Encode ++ tail.toByteArray = [c].utf8Encode := by
    rw [List.utf8Encode_singleton (c := c), bytes]
    exact List.toByteArray_append.symm
  have front := List.isPrefix_of_utf8Encode_append_eq_utf8Encode _ parts
  simpa [eq_comm] using front

theorem lineFeed_not_mem {cs : List Char} (inLine : '\n' ∉ cs) :
    lineFeed ∉ cs.utf8Encode.data := by
  intro member
  obtain ⟨c, inText, byte⟩ : ∃ c ∈ cs, lineFeed ∈ String.utf8EncodeChar c := by
    simpa [List.utf8Encode] using member
  exact inLine (eq_lineFeed_of_mem byte ▸ inText)

theorem lines_utf8Encode (cs : List Char) :
    ∃ pieces, lines cs.utf8Encode = pieces.map some ∧
      (cs.splitOn '\n' = pieces ∨ cs.splitOn '\n' = pieces ++ [[]]) := by
  have noFeed {cs : List Char} (inLine : '\n' ∉ cs) : ∀ c ∈ cs, (c == '\n') = false := by
    intro c member
    rw [beq_eq_false_iff_ne]
    rintro rfl
    exact inLine member
  rw [List.splitOn_eq_splitOnP]
  -- On the length, as what is behind the first line feed splits like the whole.
  induction length : cs.length using Nat.strongRecOn generalizing cs with
  | _ n ih =>
    by_cases feed : '\n' ∈ cs
    · obtain ⟨line, rest, rfl, inLine⟩ := List.eq_append_cons_of_mem feed
      have shorter : rest.length < n := by
        rw [← length, List.length_append, List.length_cons]
        omega
      obtain ⟨pieces, later, split⟩ := ih _ shorter rest rfl
      have split' : (line ++ '\n' :: rest).splitOnP (· == '\n') =
          line :: rest.splitOnP (· == '\n') :=
        List.splitOnP_append_cons_of_forall_mem (noFeed inLine) '\n' (by simp) rest
      refine ⟨line :: pieces, ?_, ?_⟩
      · have encoded : (line ++ '\n' :: rest).utf8Encode =
            line.utf8Encode ++ ([lineFeed].toByteArray ++ rest.utf8Encode) := by
          rw [List.utf8Encode_append, List.utf8Encode_cons]
          rfl
        rw [encoded, lines_append (lineFeed_not_mem inLine), decodeLine_utf8Encode, later]
        rfl
      · rw [split']
        exact split.imp (congrArg _) (congrArg _)
    · rw [List.splitOnP_eq_singleton (noFeed feed)]
      by_cases empty : cs = []
      · subst empty
        exact ⟨[], by simp [lines, linesFrom], .inr rfl⟩
      · refine ⟨[cs], ?_, .inl rfl⟩
        rw [lines_of_not_mem (lineFeed_not_mem feed) (by simpa using empty), decodeLine_utf8Encode]
        rfl

theorem words_blank {c : Char} (blank : isBlank c = true) (cs : List Char) :
    words (c :: cs) = words cs := by
  rw [words, if_pos blank]

theorem words_trimStart (cs : List Char) : words (trimStart cs) = words cs := by
  induction cs with
  | nil => rfl
  | cons c rest ih =>
    rw [trimStart, List.dropWhile_cons]
    split
    · rename_i blank
      rw [words_blank blank]
      exact ih
    · rfl

theorem words_eq (cs : List Char) : words cs = (cs.splitOnP isBlank).filter (!·.isEmpty) := by
  fun_induction words cs with
  | case1 => rfl
  | case2 c rest blank ih =>
    rw [List.splitOnP_cons_eq_if_modifyHead, if_pos blank, ih]
    rfl
  | case3 c rest notBlank ih =>
    have word : ∀ d ∈ c :: rest.takeWhile (!isBlank ·), isBlank d = false := by
      refine List.forall_mem_cons.2 ⟨by simpa using notBlank, fun d member => ?_⟩
      simpa using List.all_eq_true.1 (List.all_takeWhile (l := rest)) d member
    have parts : c :: rest =
        (c :: rest.takeWhile (!isBlank ·)) ++ rest.dropWhile (!isBlank ·) := by
      rw [List.cons_append, List.takeWhile_append_dropWhile]
    cases tail : rest.dropWhile (!isBlank ·) with
    | nil =>
      rw [tail, List.append_nil] at parts
      rw [parts, List.splitOnP_eq_singleton word]
      simp [words]
    | cons b tail' =>
      have blank : isBlank b = true := by
        simpa [tail] using List.head_dropWhile_not (!isBlank ·) (l := rest) (by simp [tail])
      rw [tail] at parts ih
      rw [ih, parts, List.splitOnP_append_cons_of_forall_mem word b blank,
        List.splitOnP_cons_eq_if_modifyHead, if_pos blank]
      rfl

end ClauseLearning.Text
