import MoodengSQL.Server.Rows

/-!
# Column names on the wire

The server writes twelve bytes behind the name of a column, and the client takes
eighteen. From the second column on it reads behind the place where the name begins, and
further behind with each column, so that it finds the end of another text, the marker
bytes of a column, or a zero byte. What it finds is the name in a few cases only.
-/

namespace MoodengSQL

section Suffixes

/-- The byte continues a character. -/
def Continues (byte : UInt8) : Prop := 0x80 ≤ byte.toNat ∧ byte.toNat < 0xC0

theorem continues_ofNat {n : Nat} (above : 0x80 ≤ n) (below : n < 0xC0) :
    Continues (UInt8.ofNat n) := by
  have value : (UInt8.ofNat n).toNat = n :=
    UInt8.toNat_ofNat_of_lt' (Nat.lt_trans below (by decide))
  unfold Continues
  rw [value]
  exact ⟨above, below⟩

/-- A byte that continues a character does not begin one. -/
theorem utf8Tail_of_continues {byte : UInt8} (continues : Continues byte) :
    utf8Tail byte = none := by
  obtain ⟨above, below⟩ := continues
  have small := byte.toNat_lt
  rw [← UInt8.ofNat_toNat (x := byte), utf8Tail_ofNat (by omega), if_neg (by omega),
    if_neg (by omega), if_neg (by omega), if_neg (by omega), if_neg (by omega), if_neg (by omega),
    if_neg (by omega), if_neg (by omega)]

/-- Behind its first byte, a character has at most three, which continue it. -/
theorem continues_of_mem_tail {char : Char} {byte : UInt8}
    (member : byte ∈ (String.utf8EncodeChar char).tail) : Continues byte := by
  unfold String.utf8EncodeChar at member
  generalize char.val.toNat = v at member
  dsimp only at member
  split at member
  · cases member
  · split at member
    · simp only [List.tail_cons, List.mem_cons, List.not_mem_nil, or_false] at member
      exact member ▸ continues_ofNat (by omega) (by omega)
    · split at member
      · simp only [List.tail_cons, List.mem_cons, List.not_mem_nil, or_false] at member
        rcases member with rfl | rfl
        · exact continues_ofNat (by omega) (by omega)
        · exact continues_ofNat (by omega) (by omega)
      · simp only [List.tail_cons, List.mem_cons, List.not_mem_nil, or_false] at member
        rcases member with rfl | rfl | rfl
        · exact continues_ofNat (by omega) (by omega)
        · exact continues_ofNat (by omega) (by omega)
        · exact continues_ofNat (by omega) (by omega)

/-- A suffix of a text: the rest of a character that was cut, and whole ones. -/
theorem drop_flatMap_encode (chars : List Char) (i : Nat)
    (inside : i ≤ (chars.flatMap String.utf8EncodeChar).length) :
    ∃ (cut : List UInt8) (rest : List Char), (chars.flatMap String.utf8EncodeChar).drop i =
        cut ++ rest.flatMap String.utf8EncodeChar ∧
      (∀ byte ∈ cut, Continues byte) ∧ cut.length ≤ 3 := by
  induction chars generalizing i with
  | nil => exact ⟨[], [], by simp, nofun, Nat.zero_le _⟩
  | cons char others ih =>
      have size : (String.utf8EncodeChar char).length ≤ 4 := by
        rw [String.length_utf8EncodeChar]
        exact Char.utf8Size_le_four char
      rw [List.flatMap_cons, List.length_append] at inside
      rw [List.flatMap_cons]
      by_cases behind : (String.utf8EncodeChar char).length ≤ i
      · obtain ⟨cut, rest, parts, continues, few⟩ :=
          ih (i - (String.utf8EncodeChar char).length) (by omega)
        refine ⟨cut, rest, ?_, continues, few⟩
        rw [List.drop_append, List.drop_eq_nil_of_le behind, List.nil_append, parts]
      · rw [List.drop_append_of_le_length (by omega)]
        cases i with
        | zero => exact ⟨[], char :: others, rfl, nofun, Nat.zero_le _⟩
        | succ i =>
            refine ⟨(String.utf8EncodeChar char).drop (i + 1), others, rfl, ?_, ?_⟩
            · intro byte member
              rw [← List.drop_tail] at member
              exact continues_of_mem_tail (List.mem_of_mem_drop member)
            · rw [List.length_drop]
              omega

/-- Bytes that begin no character are malformed one by one. -/
theorem decodeUtf8_malformed (bytes rest : List UInt8) (fuel : Nat)
    (malformed : ∀ byte ∈ bytes, utf8Tail byte = none) :
    decodeUtf8 (bytes.length + fuel) (bytes ++ rest) =
      List.replicate bytes.length none ++ decodeUtf8 fuel rest := by
  induction bytes with
  | nil => rw [List.length_nil, Nat.zero_add]; rfl
  | cons byte others ih =>
      rw [List.length_cons, List.cons_append, Nat.add_right_comm, decodeUtf8,
        malformed byte List.mem_cons_self]
      dsimp only
      rw [ih fun other member => malformed other (List.mem_cons_of_mem _ member)]
      rfl

/-- Malformed bytes before whole characters. -/
theorem fromUtf8Lossy_malformed (bytes : List UInt8) (chars : List Char)
    (malformed : ∀ byte ∈ bytes, utf8Tail byte = none) :
    fromUtf8Lossy (bytes ++ chars.flatMap String.utf8EncodeChar) =
      String.ofList (List.replicate bytes.length '\uFFFD' ++ chars) := by
  have enough : chars.length ≤ (chars.flatMap String.utf8EncodeChar).length := by
    have texts := length_le_utf8Bytes (String.ofList chars)
    rwa [utf8Bytes, String.toList_ofList] at texts
  unfold fromUtf8Lossy
  rw [List.length_append, decodeUtf8_malformed bytes _ _ malformed,
    decodeUtf8_flatMap chars _ enough, List.map_append, List.map_replicate, List.map_map]
  congr 2
  exact List.map_id' chars

/-- The bytes of a text that begins with replacement characters. -/
theorem utf8Bytes_replaced (count : Nat) (chars : List Char) :
    utf8Bytes (String.ofList (List.replicate count '\uFFFD' ++ chars)) =
      (List.replicate count [0xEF, 0xBF, 0xBD]).flatten ++ chars.flatMap String.utf8EncodeChar := by
  rw [utf8Bytes, String.toList_ofList, List.flatMap_append, List.flatMap_replicate]
  rfl

theorem length_utf8Bytes_replaced (count : Nat) (chars : List Char) :
    (utf8Bytes (String.ofList (List.replicate count '\uFFFD' ++ chars))).length =
      3 * count + (chars.flatMap String.utf8EncodeChar).length := by
  rw [utf8Bytes_replaced, List.length_append, List.length_flatten, List.map_replicate,
    List.sum_replicate, smul_eq_mul]
  change count * 3 + _ = _
  omega

/-- A suffix that is read as a text: the text is longer by twice the bytes of the cut
character, and as it begins with a replacement for each, only a suffix from the start on
is read as the whole. -/
theorem suffix_shown {text : String} {i : Nat} (inside : i ≤ (utf8Bytes text).length) :
    ∃ cut ≤ 3, (utf8Bytes (fromUtf8Lossy ((utf8Bytes text).drop i))).length =
        ((utf8Bytes text).drop i).length + 2 * cut ∧
      (fromUtf8Lossy ((utf8Bytes text).drop i) = text → i = 2 * cut ∧ cut ≤ 2) := by
  obtain ⟨cut, rest, parts, continues, few⟩ := drop_flatMap_encode text.toList i inside
  have shown := fromUtf8Lossy_malformed cut rest fun byte member =>
    utf8Tail_of_continues (continues byte member)
  have suffix : (utf8Bytes text).drop i = cut ++ rest.flatMap String.utf8EncodeChar := parts
  have lengths : (utf8Bytes (fromUtf8Lossy ((utf8Bytes text).drop i))).length =
      ((utf8Bytes text).drop i).length + 2 * cut.length := by
    rw [suffix, shown, length_utf8Bytes_replaced, List.length_append]
    omega
  refine ⟨cut.length, few, lengths, fun whole => ?_⟩
  rw [whole, List.length_drop] at lengths
  have place : i = 2 * cut.length := by omega
  refine ⟨place, ?_⟩
  -- three bytes of a cut character would begin where the third replacement does
  by_contra many
  have three : cut.length = 3 := by omega
  obtain ⟨first, more, split⟩ : ∃ first more, cut = first :: more :=
    List.exists_cons_of_length_pos (by omega)
  have text' : text = String.ofList (List.replicate 3 '\uFFFD' ++ rest) := by
    rw [← whole, suffix, shown, three]
  have bytes : (utf8Bytes text).drop 6 = 0xEF :: 0xBF :: 0xBD :: rest.flatMap String.utf8EncodeChar := by
    rw [text', utf8Bytes_replaced]
    rfl
  rw [show i = 6 by omega, bytes, split] at suffix
  have begins : Continues 0xEF := by
    rw [(List.cons.inj suffix).1]
    exact continues first (split ▸ List.mem_cons_self)
  exact absurd begins.2 (by decide)

end Suffixes

section Chunks

/-- The bytes behind the name of a column. -/
def columnFields : List UInt8 := [0, 0, 0, 0, 0, 0, 0xFF, 0xFF, 0xFF, 0xFF, 0, 0]

theorem encodeColumn_eq (column : String) :
    encodeColumn column = utf8Bytes column ++ 0 :: columnFields := by
  unfold encodeColumn
  rw [List.append_assoc, List.append_assoc, List.append_assoc]
  rfl

theorem length_encodeColumn (column : String) :
    (encodeColumn column).length = (utf8Bytes column).length + 13 := by
  rw [encodeColumn_eq, List.length_append]
  rfl

/-- Up to the first zero, there is one way to split a list. -/
theorem split_at_zero {chunk chunk' rest rest' : List UInt8} (zeroFree : 0 ∉ chunk)
    (zeroFree' : 0 ∉ chunk') (same : chunk ++ 0 :: rest = chunk' ++ 0 :: rest') :
    chunk = chunk' ∧ rest = rest' := by
  have stop : (chunk ++ 0 :: rest).findIdx? (· = 0) = some chunk.length :=
    Client.findIdx_zero zeroFree
  rw [same, Client.findIdx_zero zeroFree'] at stop
  obtain ⟨chunks, rests⟩ := List.append_inj same (Option.some.inj stop).symm
  exact ⟨chunks, (List.cons.inj rests).2⟩

/-- What is read in the fields of a column: nothing, or marker bytes. -/
theorem columnFields_chunk {at' : Nat} {chunk rest tail : List UInt8} (inside : at' < 12)
    (zeroFree : 0 ∉ chunk) (split : columnFields.drop at' ++ tail = chunk ++ 0 :: rest) :
    chunk = [] ∨ ∃ count, 1 ≤ count ∧ at' + count = 10 ∧ count ≤ 4 ∧
      chunk = List.replicate count 0xFF := by
  have fields : ∃ count more, count ≤ 4 ∧
      columnFields.drop at' = List.replicate count 0xFF ++ 0 :: more ∧
      (count = 0 ∨ at' + count = 10) := by
    unfold columnFields
    interval_cases at'
    · exact ⟨0, _, by decide, rfl, .inl rfl⟩
    · exact ⟨0, _, by decide, rfl, .inl rfl⟩
    · exact ⟨0, _, by decide, rfl, .inl rfl⟩
    · exact ⟨0, _, by decide, rfl, .inl rfl⟩
    · exact ⟨0, _, by decide, rfl, .inl rfl⟩
    · exact ⟨0, _, by decide, rfl, .inl rfl⟩
    · exact ⟨4, _, by decide, rfl, .inr rfl⟩
    · exact ⟨3, _, by decide, rfl, .inr rfl⟩
    · exact ⟨2, _, by decide, rfl, .inr rfl⟩
    · exact ⟨1, _, by decide, rfl, .inr rfl⟩
    · exact ⟨0, _, by decide, rfl, .inl rfl⟩
    · exact ⟨0, _, by decide, rfl, .inl rfl⟩
  obtain ⟨count, more, few, fields, place⟩ := fields
  have markers : 0 ∉ List.replicate count (0xFF : UInt8) := by
    intro member
    exact absurd (List.eq_of_mem_replicate member) (by decide)
  rw [fields, List.append_assoc, List.cons_append] at split
  obtain ⟨rfl, -⟩ := split_at_zero markers zeroFree split
  rcases place with rfl | place
  · exact .inl rfl
  · by_cases none : count = 0
    · exact .inl (by rw [none]; rfl)
    · exact .inr ⟨count, Nat.pos_of_ne_zero none, place, few, rfl⟩

variable {lag : Nat} {chunk rest : List UInt8} {name : String} {names : List String}

/-- The first text that is read from a place in the columns on: the end of the name, what
is in the fields, or something behind them. -/
theorem chunk_cases (zeroFree : '\x00' ∉ name.toList) (chunkFree : 0 ∉ chunk)
    (split : ((name :: names).flatMap encodeColumn).drop lag = chunk ++ 0 :: rest) :
    lag ≤ (utf8Bytes name).length ∧ chunk = (utf8Bytes name).drop lag ∨
      (utf8Bytes name).length < lag ∧ lag ≤ (utf8Bytes name).length + 12 ∧ chunk = [] ∨
      (∃ count, 1 ≤ count ∧ count ≤ 4 ∧ lag + count = (utf8Bytes name).length + 11 ∧
        chunk = List.replicate count 0xFF) ∨
      (utf8Bytes name).length + 13 ≤ lag ∧
        (names.flatMap encodeColumn).drop (lag - ((utf8Bytes name).length + 13)) =
          chunk ++ 0 :: rest := by
  rw [List.flatMap_cons] at split
  by_cases inName : lag ≤ (utf8Bytes name).length
  · rw [encodeColumn_eq, List.append_assoc, List.cons_append,
      List.drop_append_of_le_length inName] at split
    have suffixFree : 0 ∉ (utf8Bytes name).drop lag := fun member =>
      zero_not_mem_utf8Bytes zeroFree (List.mem_of_mem_drop member)
    exact .inl ⟨inName, (split_at_zero suffixFree chunkFree split).1.symm⟩
  · by_cases inFields : lag ≤ (utf8Bytes name).length + 12
    · obtain ⟨place, rfl⟩ : ∃ place, lag = (utf8Bytes name).length + 1 + place :=
        ⟨lag - ((utf8Bytes name).length + 1), by omega⟩
      have fields : (encodeColumn name ++ names.flatMap encodeColumn).drop
          ((utf8Bytes name).length + 1 + place) =
          columnFields.drop place ++ names.flatMap encodeColumn := by
        have before : (utf8Bytes name ++ [0]).length = (utf8Bytes name).length + 1 := by
          rw [List.length_append, List.length_singleton]
        have short : place ≤ columnFields.length := by
          change place ≤ 12
          omega
        rw [encodeColumn_eq, ← List.singleton_append, ← List.append_assoc, List.append_assoc,
          ← before, List.drop_length_add_append, List.drop_append_of_le_length short]
      rw [fields] at split
      rcases columnFields_chunk (by omega) chunkFree split with empty | ⟨count, some, place', few,
        markers⟩
      · exact .inr (.inl ⟨by omega, by omega, empty⟩)
      · exact .inr (.inr (.inl ⟨count, some, few, by omega, markers⟩))
    · refine .inr (.inr (.inr ⟨by omega, ?_⟩))
      obtain ⟨more, rfl⟩ : ∃ more, lag = (encodeColumn name).length + more :=
        ⟨lag - (encodeColumn name).length, by rw [length_encodeColumn]; omega⟩
      rw [List.drop_length_add_append] at split
      rw [length_encodeColumn, Nat.add_sub_cancel_left]
      exact split

/-- Anywhere in the columns, the end of a name is read, or marker bytes. -/
theorem chunk_somewhere (zeroFree : ∀ name ∈ names, '\x00' ∉ name.toList) (chunkFree : 0 ∉ chunk)
    (split : (names.flatMap encodeColumn).drop lag = chunk ++ 0 :: rest) :
    names ≠ [] ∧ ((∃ name i, i ≤ (utf8Bytes name).length ∧ chunk = (utf8Bytes name).drop i) ∨
      ∃ count, 1 ≤ count ∧ count ≤ 4 ∧ 7 ≤ lag ∧ chunk = List.replicate count 0xFF) := by
  induction names generalizing lag with
  | nil =>
      rw [List.flatMap_nil, List.drop_nil] at split
      cases chunk <;> cases split
  | cons first others ih =>
      refine ⟨List.cons_ne_nil _ _, ?_⟩
      rcases chunk_cases (zeroFree first List.mem_cons_self) chunkFree split with
        ⟨inside, own⟩ | ⟨-, -, empty⟩ | ⟨count, some, few, place, markers⟩ | ⟨behind, later⟩
      · exact .inl ⟨first, lag, inside, own⟩
      · exact .inl ⟨"", 0, Nat.zero_le _, empty⟩
      · exact .inr ⟨count, some, few, by omega, markers⟩
      · rcases (ih (fun name member => zeroFree name (List.mem_cons_of_mem _ member)) later).2 with
          suffix | ⟨count, some, few, place, markers⟩
        · exact .inl suffix
        · exact .inr ⟨count, some, few, by omega, markers⟩

end Chunks

section Lags

variable {name : String} {names : List String} {lag : Nat} {chunk rest : List UInt8}

theorem length_fromUtf8Lossy_markers (count : Nat) :
    (utf8Bytes (fromUtf8Lossy (List.replicate count 0xFF))).length = 3 * count := by
  have malformed (byte : UInt8) (member : byte ∈ List.replicate count (0xFF : UInt8)) :
      utf8Tail byte = none := by
    rw [List.eq_of_mem_replicate member]
    rfl
  have shown := fromUtf8Lossy_malformed _ [] malformed
  rw [List.flatMap_nil, List.append_nil, List.length_replicate] at shown
  rw [shown, length_utf8Bytes_replaced]
  rfl

/-- What the client has read when it takes a text for the name, six bytes behind its
beginning at least and an even number of them: an empty name, or something behind the
column that leaves it as far behind. -/
theorem read_behind (zeroFree : ∀ other ∈ name :: names, '\x00' ∉ other.toList)
    (chunkFree : 0 ∉ chunk) (even : Even lag) (far : 6 ≤ lag)
    (split : ((name :: names).flatMap encodeColumn).drop lag = chunk ++ 0 :: rest)
    (read : fromUtf8Lossy chunk = name) :
    name = "" ∧ chunk = [] ∧ lag ≤ 12 ∨
      names ≠ [] ∧ ∃ next, next + (utf8Bytes name).length = lag + chunk.length + 6 ∧
        Even next ∧ min lag 18 ≤ next ∧ 13 ≤ lag := by
  obtain ⟨half, rfl⟩ := even
  have first := zeroFree name List.mem_cons_self
  rcases chunk_cases first chunkFree split with
    ⟨inside, rfl⟩ | ⟨behind, near, rfl⟩ | ⟨count, some, few, place, rfl⟩ | ⟨behind, later⟩
  · obtain ⟨cut, -, -, whole⟩ := suffix_shown inside
    obtain ⟨place, few⟩ := whole read
    omega
  · have empty : name = "" := read.symm
    rw [empty] at near
    exact .inl ⟨empty, rfl, near⟩
  · have length := length_fromUtf8Lossy_markers count
    rw [read] at length
    omega
  · have others : ∀ other ∈ names, '\x00' ∉ other.toList :=
      fun other member => zeroFree other (List.mem_cons_of_mem _ member)
    obtain ⟨some, found⟩ := chunk_somewhere others chunkFree later
    refine .inr ⟨some, ?_⟩
    rcases found with ⟨other, i, inside, rfl⟩ | ⟨count, -, few, place, rfl⟩
    · obtain ⟨cut, few, length, -⟩ := suffix_shown inside
      rw [read] at length
      exact ⟨half + half + 6 - 2 * cut, by omega, ⟨half + 3 - cut, by omega⟩, by omega, by omega⟩
    · have length := length_fromUtf8Lossy_markers count
      rw [read] at length
      rw [List.length_replicate]
      exact ⟨half + half + 6 - 2 * count, by omega, ⟨half + 3 - count, by omega⟩, by omega,
        by omega⟩

end Lags

namespace Client

section Reading

variable {name : String} {names : List String} {before : List UInt8} {lag : Nat}

theorem length_readColumns_le {payload : List UInt8} {count pos : Nat} {columns : List String}
    (read : readColumns payload count pos = .ok columns) : columns.length ≤ count := by
  induction count generalizing pos columns with
  | zero =>
      cases read
      exact Nat.le_refl _
  | succ count ih =>
      obtain ⟨rest, -, read⟩ := Foundation.Effect.except_bind_eq_ok.mp read
      split at read
      · obtain ⟨later, more, same⟩ := Foundation.Effect.except_bind_eq_ok.mp read
        cases same
        exact Nat.succ_le_succ (ih more)
      · exact (ih read).trans (Nat.le_succ _)

/-- The client reads exactly the names, from some bytes behind their columns' beginning. -/
def ReadsFrom (before : List UInt8) (names : List String) (lag : Nat) : Prop :=
  readColumns (before ++ names.flatMap encodeColumn) names.length (before.length + lag) = .ok names

/-- The slice to the end of the payload. -/
theorem slice_to_end (before stream : List UInt8) (lag : Nat) :
    slice (before ++ stream) (before.length + lag) (before ++ stream).length =
      if lag ≤ stream.length then .ok (stream.drop lag)
      else .error (.panic "slice index out of range") := by
  unfold slice
  rw [List.length_append]
  by_cases inside : lag ≤ stream.length
  · rw [if_pos inside, if_pos (by omega), List.drop_length_add_append]
    congr 1
    apply List.take_of_length_le
    rw [List.length_drop]
    omega
  · rw [if_neg inside, if_neg (by omega)]

theorem findIdx_zero_eq_some {bytes : List UInt8} {stop : Nat}
    (found : bytes.findIdx? (· = 0) = some stop) :
    bytes = bytes.take stop ++ 0 :: bytes.drop (stop + 1) ∧ 0 ∉ bytes.take stop := by
  obtain ⟨inside, zero, before⟩ := List.findIdx?_eq_some_iff_getElem.mp found
  constructor
  · rw [← of_decide_eq_true zero, List.cons_getElem_drop_succ, List.take_append_drop]
  · intro member
    obtain ⟨i, bound, at'⟩ := List.mem_take_iff_getElem.mp member
    have differs := before i (by omega)
    rw [at'] at differs
    exact absurd differs (by decide)

/-- One turn of the loop reads the first name. -/
theorem readsFrom_cons : ReadsFrom before (name :: names) lag ↔
    ∃ chunk rest, ((name :: names).flatMap encodeColumn).drop lag = chunk ++ 0 :: rest ∧
      0 ∉ chunk ∧ fromUtf8Lossy chunk = name ∧
      readColumns (before ++ (name :: names).flatMap encodeColumn) names.length
        (before.length + lag + chunk.length + 1 + 18) = .ok names := by
  unfold ReadsFrom
  rw [List.length_cons, readColumns, slice_to_end]
  constructor
  · intro reads
    obtain ⟨stream, sliced, reads⟩ := Foundation.Effect.except_bind_eq_ok.mp reads
    split at sliced
    · cases sliced
      split at reads
      · rename_i stop found
        obtain ⟨later, more, same⟩ := Foundation.Effect.except_bind_eq_ok.mp reads
        obtain ⟨split, chunkFree⟩ := findIdx_zero_eq_some found
        obtain ⟨inside, -⟩ := List.findIdx?_eq_some_iff_getElem.mp found
        obtain ⟨shown, rfl⟩ := List.cons.inj (Except.ok.inj same)
        refine ⟨_, _, split, chunkFree, shown, ?_⟩
        rw [List.length_take, Nat.min_eq_left (Nat.le_of_lt inside)]
        exact more
      · have few := length_readColumns_le reads
        rw [List.length_cons] at few
        exact absurd few (Nat.not_succ_le_self _)
    · cases sliced
  · rintro ⟨chunk, rest, split, chunkFree, shown, later⟩
    have inside : lag ≤ ((name :: names).flatMap encodeColumn).length := by
      have size := congrArg List.length split
      rw [List.length_drop, List.length_append, List.length_cons] at size
      omega
    rw [if_pos inside, split]
    dsimp only [Bind.bind, Except.bind]
    rw [findIdx_zero chunkFree]
    dsimp only
    rw [List.take_left' rfl, shown, later]
    rfl

/-- The columns behind the first one, read from a place in them. -/
theorem readsFrom_next {read next : Nat} (place : next + (utf8Bytes name).length = lag + read + 6) :
    readColumns (before ++ (name :: names).flatMap encodeColumn) names.length
        (before.length + lag + read + 1 + 18) = .ok names ↔
      ReadsFrom (before ++ encodeColumn name) names next := by
  unfold ReadsFrom
  rw [List.flatMap_cons, List.append_assoc, List.length_append, length_encodeColumn,
    show before.length + lag + read + 1 + 18 =
      before.length + ((utf8Bytes name).length + 13) + next by omega]

/-- Eighteen bytes behind, no columns are read. -/
theorem not_readsFrom_far (zeroFree : ∀ other ∈ names, '\x00' ∉ other.toList) (some : names ≠ [])
    (even : Even lag) (far : 18 ≤ lag) : ¬ ReadsFrom before names lag := by
  induction names generalizing before lag with
  | nil => exact absurd rfl some
  | cons name others ih =>
      intro reads
      obtain ⟨chunk, rest, split, chunkFree, read, later⟩ := readsFrom_cons.mp reads
      rcases read_behind zeroFree chunkFree even (by omega) split read with
        ⟨-, -, near⟩ | ⟨more, next, place, even', far', -⟩
      · omega
      · exact ih (fun other member => zeroFree other (List.mem_cons_of_mem _ member)) more even'
          (by omega) ((readsFrom_next place).mp later)

/-- Six or twelve bytes behind, an empty name is read, and the client falls six bytes
more behind. -/
theorem readsFrom_near (zeroFree : ∀ other ∈ name :: names, '\x00' ∉ other.toList)
    (near : lag = 6 ∨ lag = 12) :
    ReadsFrom before (name :: names) lag ↔
      name = "" ∧ ReadsFrom (before ++ encodeColumn "") names (lag + 6) := by
  have even : Even lag := by
    rcases near with rfl | rfl
    · exact ⟨3, rfl⟩
    · exact ⟨6, rfl⟩
  constructor
  · intro reads
    obtain ⟨chunk, rest, split, chunkFree, read, later⟩ := readsFrom_cons.mp reads
    rcases read_behind zeroFree chunkFree even (by omega) split read with
      ⟨rfl, rfl, -⟩ | ⟨-, next, -, -, -, beyond⟩
    · exact ⟨rfl, (readsFrom_next rfl).mp later⟩
    · omega
  · rintro ⟨rfl, later⟩
    apply readsFrom_cons.mpr
    refine ⟨[], ((encodeColumn "" ++ names.flatMap encodeColumn).drop (lag + 1)), ?_,
      List.not_mem_nil, rfl, (readsFrom_next rfl).mpr later⟩
    rcases near with rfl | rfl
    · rfl
    · rfl

/-- **All names are read exactly when there are three at most and those behind the first
one are empty.** -/
theorem readsFrom_iff (zeroFree : ∀ other ∈ name :: names, '\x00' ∉ other.toList) :
    ReadsFrom before (name :: names) 0 ↔ names.length ≤ 2 ∧ ∀ other ∈ names, other = "" := by
  have first : ReadsFrom before (name :: names) 0 ↔
      ReadsFrom (before ++ encodeColumn name) names 6 := by
    have chunk : ((name :: names).flatMap encodeColumn).drop 0 =
        utf8Bytes name ++ 0 :: (columnFields ++ names.flatMap encodeColumn) := by
      rw [List.drop_zero, List.flatMap_cons, encodeColumn_eq, List.append_assoc]
      rfl
    have nameFree := zero_not_mem_utf8Bytes (zeroFree name List.mem_cons_self)
    have next : 6 + (utf8Bytes name).length = 0 + (utf8Bytes name).length + 6 := by omega
    rw [readsFrom_cons]
    constructor
    · rintro ⟨_, _, split, chunkFree, -, later⟩
      obtain ⟨rfl, -⟩ := split_at_zero chunkFree nameFree (split.symm.trans chunk)
      exact (readsFrom_next next).mp later
    · intro later
      exact ⟨_, _, chunk, nameFree, fromUtf8Lossy_utf8Bytes name, (readsFrom_next next).mpr later⟩
  have behind : ∀ other ∈ names, '\x00' ∉ other.toList :=
    fun other member => zeroFree other (List.mem_cons_of_mem _ member)
  rw [first]
  match names, behind with
  | [], _ => exact iff_of_true rfl ⟨Nat.zero_le _, nofun⟩
  | [second], behind =>
      rw [readsFrom_near behind (.inl rfl)]
      simp only [List.length_singleton, List.mem_singleton, forall_eq]
      exact ⟨fun reads => ⟨by decide, reads.1⟩, fun empty => ⟨empty.2, rfl⟩⟩
  | [second, third], behind =>
      rw [readsFrom_near behind (.inl rfl),
        readsFrom_near (fun other member => behind other (List.mem_cons_of_mem _ member)) (.inr rfl)]
      simp only [List.length_cons, List.length_nil, List.mem_cons, List.not_mem_nil, or_false,
        forall_eq_or_imp, forall_eq]
      exact ⟨fun reads => ⟨by decide, reads.1, reads.2.1⟩,
        fun empty => ⟨empty.2.1, empty.2.2, rfl⟩⟩
  | second :: third :: fourth :: rest, behind =>
      apply iff_of_false
      · intro reads
        obtain ⟨-, reads⟩ := (readsFrom_near behind (.inl rfl)).mp reads
        have behind' : ∀ other ∈ third :: fourth :: rest, '\x00' ∉ other.toList :=
          fun other member => behind other (List.mem_cons_of_mem _ member)
        obtain ⟨-, reads⟩ := (readsFrom_near behind' (.inr rfl)).mp reads
        exact not_readsFrom_far (fun other member => behind' other (List.mem_cons_of_mem _ member))
          (List.cons_ne_nil _ _) ⟨9, rfl⟩ (Nat.le_refl 18) reads
      · rintro ⟨few, -⟩
        simp only [List.length_cons] at few
        omega

end Reading

end Client

/-- **The client reads the columns of the server exactly when there are three at most
and the names behind the first one are empty.** -/
theorem client_reads_columns_iff (names : List String) (some : names ≠ [])
    (few : names.length ≤ 32767) (zeroFree : ∀ name ∈ names, '\x00' ∉ name.toList) :
    Client.showMessage 'T'.toUInt8 (rowDescription names) = .ok (.some (.columns names)) ↔
      names.length ≤ 3 ∧ ∀ name ∈ names.tail, name = "" := by
  obtain ⟨name, others, rfl⟩ := List.exists_cons_of_ne_nil some
  have size : (toBeBytes 2 (name :: others).length).length = 2 := toBeBytes_length 2 _
  have long : 2 < (rowDescription (name :: others)).length := by
    rw [rowDescription, List.length_append, size, List.flatMap_cons, List.length_append,
      length_encodeColumn]
    omega
  have count : Client.columnCount (rowDescription (name :: others)) = (name :: others).length :=
    Client.columnCount_toBeBytes few _
  have reads : Client.ReadsFrom (toBeBytes 2 (name :: others).length) (name :: others) 0 ↔
      others.length ≤ 2 ∧ ∀ other ∈ others, other = "" := Client.readsFrom_iff zeroFree
  rw [Client.ReadsFrom, size] at reads
  rw [List.tail_cons, List.length_cons, Nat.add_le_add_iff_right, ← reads]
  change (if 2 < (rowDescription (name :: others)).length then _ else _) = _ ↔ _
  rw [if_pos long, count]
  change (do return Option.some (Shown.columns (← Client.readColumns
    (rowDescription (name :: others)) (name :: others).length 2))) = _ ↔
      Client.readColumns (rowDescription (name :: others)) (name :: others).length 2 = _
  cases Client.readColumns (rowDescription (name :: others)) (name :: others).length 2 with
  | error e =>
      apply iff_of_false
      · rintro ⟨⟩
      · rintro ⟨⟩
  | ok columns =>
      change Except.ok (Option.some (Shown.columns columns)) = _ ↔ _
      simp only [Except.ok.injEq, Option.some.injEq, Shown.columns.injEq]

/-- The second of two names is lost. -/
theorem second_column_unread :
    Client.showMessage 'T'.toUInt8 (rowDescription ["a", "b"]) = .ok (some (.columns ["a", ""])) ∧
      Client.showMessage 'T'.toUInt8 (rowDescription ["a", "b"]) ≠
        .ok (some (.columns ["a", "b"])) := by
  have read : Client.showMessage 'T'.toUInt8 (rowDescription ["a", "b"]) =
      .ok (some (.columns ["a", ""])) := by
    decide +kernel
  refine ⟨read, ?_⟩
  rw [read]
  decide

theorem client_reads_columns_iff_one :
    Client.showMessage 'T'.toUInt8 (rowDescription ["a"]) = .ok (some (.columns ["a"])) :=
  (client_reads_columns_iff ["a"] (by decide) (by decide) (by decide)).mpr (by decide)

end MoodengSQL
