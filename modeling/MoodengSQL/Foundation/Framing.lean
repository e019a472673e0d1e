import Mathlib

/-!
# Streams of frames

A reader that takes frames off a stream until one is missing or broken. What it
reads of the encoding of a list, cut anywhere, is the frames that lie whole
before the cut.
-/

namespace Foundation

variable {B α : Type}

/-- Read frames until one is missing or broken, at most `fuel` of them. -/
def readFrames (parse : List B → Option (α × List B)) : Nat → List B → List α
  | 0, _ => []
  | fuel + 1, bytes =>
      match parse bytes with
      | none => []
      | some (frame, rest) => frame :: readFrames parse fuel rest

/-- Read every frame of a stream. -/
def readAll (parse : List B → Option (α × List B)) (bytes : List B) : List α :=
  readFrames parse bytes.length bytes

/-- A frame takes up some of the stream. -/
def Progress (parse : List B → Option (α × List B)) : Prop :=
  ∀ ⦃bytes frame rest⦄, parse bytes = some (frame, rest) → rest.length < bytes.length

/-- The frames that lie whole within the first `n` units of their encodings. -/
def wholeWithin (size : α → Nat) : Nat → List α → List α
  | _, [] => []
  | n, frame :: rest =>
      if size frame ≤ n then frame :: wholeWithin size (n - size frame) rest else []

section Cuts

variable (size : α → Nat)

theorem wholeWithin_isPrefix (n : Nat) (frames : List α) : wholeWithin size n frames <+: frames := by
  induction frames generalizing n with
  | nil => exact List.nil_prefix
  | cons frame rest ih =>
      rw [wholeWithin]
      split
      · exact (List.prefix_cons_inj frame).mpr (ih _)
      · exact List.nil_prefix

/-- What lies before the cut is whole. -/
theorem wholeWithin_append {n : Nat} {first : List α} (within : (first.map size).sum ≤ n)
    (second : List α) : wholeWithin size n (first ++ second) =
      first ++ wholeWithin size (n - (first.map size).sum) second := by
  induction first generalizing n with
  | nil => rfl
  | cons frame rest ih =>
      rw [List.map_cons, List.sum_cons] at within ⊢
      rw [List.cons_append, wholeWithin, if_pos (by omega), ih (by omega), Nat.sub_sub]
      rfl

end Cuts

section Reading

variable {parse : List B → Option (α × List B)}

private theorem readFrames_fuel (progress : Progress parse) (fuel more : Nat) (bytes : List B)
    (enough : bytes.length ≤ fuel) (also : bytes.length ≤ more) :
    readFrames parse fuel bytes = readFrames parse more bytes := by
  induction fuel generalizing more bytes with
  | zero =>
      have stop : parse bytes = none := by
        cases parsed : parse bytes with
        | none => rfl
        | some taken => exact absurd (progress parsed) (by omega)
      cases more <;> simp [readFrames, stop]
  | succ fuel ih =>
      cases parsed : parse bytes with
      | none => cases more <;> simp [readFrames, parsed]
      | some taken =>
          have shorter := progress parsed
          obtain ⟨more, rfl⟩ : ∃ n, more = n + 1 := ⟨more - 1, by omega⟩
          simp only [readFrames, parsed]
          rw [ih more taken.2 (by omega) (by omega)]

/-- Fuel beyond the length of the stream changes nothing. -/
theorem readFrames_eq_readAll (progress : Progress parse) {fuel : Nat} {bytes : List B}
    (enough : bytes.length ≤ fuel) : readFrames parse fuel bytes = readAll parse bytes :=
  readFrames_fuel progress fuel bytes.length bytes enough le_rfl

theorem readAll_of_some (progress : Progress parse) {bytes rest : List B} {frame : α}
    (parsed : parse bytes = some (frame, rest)) :
    readAll parse bytes = frame :: readAll parse rest := by
  have shorter := progress parsed
  obtain ⟨size, sized⟩ : ∃ n, bytes.length = n + 1 := ⟨bytes.length - 1, by omega⟩
  rw [readAll, sized]
  simp only [readFrames, parsed]
  rw [readFrames_eq_readAll progress (by omega)]

theorem readAll_of_none {bytes : List B} (parsed : parse bytes = none) :
    readAll parse bytes = [] := by
  unfold readAll
  cases bytes.length <;> simp [readFrames, parsed]

/-- Whole frames are read in order, each to what the reader makes of it, and
reading goes on behind them. -/
theorem readAll_encoded {β : Type} (progress : Progress parse) {encode : β → List B} {view : β → α}
    {frames : List β}
    (reads : ∀ frame ∈ frames, ∀ rest, parse (encode frame ++ rest) = some (view frame, rest))
    (tail : List B) :
    readAll parse (frames.flatMap encode ++ tail) = frames.map view ++ readAll parse tail := by
  induction frames with
  | nil => rfl
  | cons frame frames ih =>
      rw [List.flatMap_cons, List.append_assoc,
        readAll_of_some progress (reads frame List.mem_cons_self _), List.map_cons,
        List.cons_append, ih fun other member => reads other (List.mem_cons_of_mem _ member)]

/-- **A cut stream reads back its whole frames.** -/
theorem readAll_take_encoded (progress : Progress parse) {encode : α → List B} {frames : List α}
    (reads : ∀ frame ∈ frames, ∀ rest, parse (encode frame ++ rest) = some (frame, rest))
    (torn : ∀ frame ∈ frames, ∀ n < (encode frame).length, parse ((encode frame).take n) = none)
    (n : Nat) :
    readAll parse ((frames.flatMap encode).take n) =
      wholeWithin (fun frame => (encode frame).length) n frames := by
  induction frames generalizing n with
  | nil => simp [wholeWithin, readAll, readFrames]
  | cons frame frames ih =>
      have first := reads frame List.mem_cons_self
      have later := ih (fun other member => reads other (List.mem_cons_of_mem _ member))
        fun other member => torn other (List.mem_cons_of_mem _ member)
      rw [List.flatMap_cons, wholeWithin]
      split
      · rename_i fits
        rw [List.take_append, List.take_of_length_le fits,
          readAll_of_some progress (first _), later]
      · rename_i cut
        have short : n < (encode frame).length := Nat.lt_of_not_le cut
        rw [List.take_append_of_le_length short.le,
          readAll_of_none (torn frame List.mem_cons_self n short)]

end Reading

section Loops

variable {β : Type} {parse : List B → Option (α × List B)} {skip : List B → Option (β × List B)}

/-- The loop of a reader on a stream, up to the turn that breaks off. -/
inductive Reads (parse : List B → Option (α × List B)) : List B → List α → Prop where
  | stop {bytes : List B} (broken : parse bytes = none) : Reads parse bytes []
  | next {bytes rest : List B} {frame : α} {frames : List α}
      (parsed : parse bytes = some (frame, rest)) (later : Reads parse rest frames) :
      Reads parse bytes (frame :: frames)

/-- **A loop whose turns make progress ends**, with what `readAll` gives. -/
theorem reads_readAll (progress : Progress parse) (bytes : List B) :
    Reads parse bytes (readAll parse bytes) := by
  induction size : bytes.length using Nat.strong_induction_on generalizing bytes with
  | _ size ih =>
      cases parsed : parse bytes with
      | none =>
          rw [readAll_of_none parsed]
          exact .stop parsed
      | some taken =>
          obtain ⟨frame, rest⟩ := taken
          have shorter := progress parsed
          rw [readAll_of_some progress parsed]
          exact .next parsed (ih rest.length (size ▸ shorter) rest rfl)

/-- The stream consists of whole frames. -/
inductive Whole (parse : List B → Option (α × List B)) : List B → List α → Prop where
  | nil : Whole parse [] []
  | cons {bytes rest : List B} {frame : α} {frames : List α}
      (parsed : parse bytes = some (frame, rest)) (later : Whole parse rest frames) :
      Whole parse bytes (frame :: frames)

theorem Whole.readAll_eq {bytes : List B} {frames : List α} (progress : Progress parse)
    (whole : Whole parse bytes frames) : readAll parse bytes = frames := by
  induction whole with
  | nil => rfl
  | cons parsed _ ih => rw [readAll_of_some progress parsed, ih]

/-- A frame is read in the same way whatever follows it. -/
def Local (parse : List B → Option (α × List B)) : Prop :=
  ∀ ⦃bytes frame rest⦄, parse bytes = some (frame, rest) →
    ∀ tail, parse (bytes ++ tail) = some (frame, rest ++ tail)

/-- Whole frames behind whole frames. -/
theorem Whole.append {bytes more : List B} {frames others : List α} (isLocal : Local parse)
    (whole : Whole parse bytes frames) (behind : Whole parse more others) :
    Whole parse (bytes ++ more) (frames ++ others) := by
  induction whole with
  | nil => exact behind
  | cons parsed _ ih => exact .cons (isLocal parsed more) ih

/-- A reader that checks less reads at least as far. -/
theorem Reads.isPrefix {view : α → β} {bytes : List B} {frames : List α}
    (reads : Reads parse bytes frames) (also : Progress skip)
    (skips : ∀ ⦃bytes frame rest⦄, parse bytes = some (frame, rest) →
      skip bytes = some (view frame, rest)) : frames.map view <+: readAll skip bytes := by
  induction reads with
  | stop => exact List.nil_prefix
  | next parsed _ ih =>
      rw [readAll_of_some also (skips parsed), List.map_cons, List.prefix_cons_inj]
      exact ih

end Loops

end Foundation
