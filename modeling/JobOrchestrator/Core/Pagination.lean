import JobOrchestrator.Db.Columns
import JobOrchestrator.Library.Base64
import JobOrchestrator.Library.Datetime

/-!
# Cursors

`app/core/pagination.py`: the position of a row in a listing and its text, the instant and the id
of the row in URL-safe Base64.
-/

namespace JobOrchestrator

open Numerals

/-! ## The text of an id -/

/-- `str.replace(pattern, "")`; the first argument counts characters that a match still covers. -/
def removeAll (pattern : List Char) : ℕ → List Char → List Char
  | _, [] => []
  | covered + 1, _ :: cs => removeAll pattern covered cs
  | 0, c :: cs =>
      if pattern.isPrefixOf (c :: cs) then removeAll pattern (pattern.length - 1) cs
      else c :: removeAll pattern 0 cs

def isBrace (c : Char) : Bool := c = '\x7b' || c = '\x7d'

/-- `uuid.UUID(text)`: 32 hexadecimal digits, with dashes, braces and a URN prefix optional. -/
def UUID.parse (cs : List Char) : Option UUID :=
  let cs := removeAll "uuid:".toList 0 (removeAll "urn:".toList 0 cs)
  let cs := ((cs.dropWhile isBrace).reverse.dropWhile isBrace).reverse
  match readDigits 16 32 0 (cs.filter (· ≠ '-')) with
  | some (n, []) => if h : n < 2 ^ 128 then some ⟨⟨n, h⟩⟩ else none
  | _ => none

lemma removeAll_of_notMem {c : Char} {pattern cs : List Char} (h : c ∉ cs) :
    removeAll (c :: pattern) 0 cs = cs := by
  induction cs with
  | nil => rfl
  | cons d cs ih =>
      obtain ⟨hne, hrest⟩ := not_or.mp (mt List.mem_cons.mpr h)
      rw [removeAll, List.isPrefixOf, beq_false_of_ne hne, Bool.false_and,
        if_neg Bool.false_ne_true, ih hrest]

lemma digitChar_eq_digit {n : ℕ} (h : n < 16) : Nat.digitChar n = digit n := by
  have hall : ∀ i : Fin 16, Nat.digitChar i = digit i := by decide +kernel
  exact hall ⟨n, h⟩

lemma zeroPad_eq_map (w n : ℕ) :
    zeroPad 16 w n = (List.range w).map fun i => Nat.digitChar (n / 16 ^ (w - 1 - i) % 16) := by
  induction w with
  | zero => rfl
  | succ w ih =>
      rw [zeroPad, ih, List.range_succ_eq_map, List.map_cons, List.map_map,
        digitChar_eq_digit (Nat.mod_lt _ (by decide))]
      refine congrArg₂ List.cons (by simp) (List.map_congr_left fun i hi => ?_)
      have hexponent : w + 1 - 1 - (i + 1) = w - 1 - i := by omega
      simp only [Function.comp_apply, hexponent]

/-- The digits of an id, with the dashes. -/
lemma toList_str (id : UUID) : ∃ hex, hex = zeroPad 16 32 id.int ∧ id.str.toList =
    hex.take 8 ++ '-' :: (hex.drop 8).take 4 ++ '-' :: (hex.drop 12).take 4 ++
      '-' :: (hex.drop 16).take 4 ++ '-' :: hex.drop 20 := by
  refine ⟨_, rfl, ?_⟩
  rw [zeroPad_eq_map]
  exact String.toList_ofList

/-- The text of an id has digits and dashes only. -/
lemma mem_str {id : UUID} {c : Char} (h : c ∈ id.str.toList) :
    c = '-' ∨ ∃ i, i < 16 ∧ c = digit i := by
  obtain ⟨hex, rfl, htext⟩ := toList_str id
  have hdigit : ∀ x ∈ zeroPad 16 32 id.int, ∃ i, i < 16 ∧ x = digit i := fun x hx =>
    exists_of_mem_zeroPad (by decide) hx
  rw [htext] at h
  simp only [List.mem_append, List.mem_cons] at h
  rcases h with (((h | h | h) | h | h) | h | h) | h | h
  · exact Or.inr (hdigit c (List.mem_of_mem_take h))
  · exact Or.inl h
  · exact Or.inr (hdigit c (List.mem_of_mem_drop (List.mem_of_mem_take h)))
  · exact Or.inl h
  · exact Or.inr (hdigit c (List.mem_of_mem_drop (List.mem_of_mem_take h)))
  · exact Or.inl h
  · exact Or.inr (hdigit c (List.mem_of_mem_drop (List.mem_of_mem_take h)))
  · exact Or.inl h
  · exact Or.inr (hdigit c (List.mem_of_mem_drop h))

lemma notMem_str {id : UUID} {c : Char} (hdash : c ≠ '-') (hdigit : ∀ i : Fin 16, digit i ≠ c) :
    c ∉ id.str.toList := by
  intro h
  rcases mem_str h with rfl | ⟨i, hi, rfl⟩
  · exact hdash rfl
  · exact hdigit ⟨i, hi⟩ rfl

lemma filter_str (id : UUID) : id.str.toList.filter (· ≠ '-') = zeroPad 16 32 id.int := by
  obtain ⟨hex, hhex, htext⟩ := toList_str id
  have hkeep : ∀ x ∈ hex, decide (x ≠ '-') = true := by
    intro x hx
    obtain ⟨i, hi, rfl⟩ := exists_of_mem_zeroPad (by decide) (hhex ▸ hx)
    have hall : ∀ i : Fin 16, decide (digit i ≠ '-') = true := by decide +kernel
    exact hall ⟨i, hi⟩
  have htake : ∀ k m, ((hex.drop k).take m).filter (· ≠ '-') = (hex.drop k).take m := fun k m =>
    List.filter_eq_self.mpr fun x hx => hkeep x (List.mem_of_mem_drop (List.mem_of_mem_take hx))
  have hdrop : ∀ k, (hex.drop k).filter (· ≠ '-') = hex.drop k := fun k =>
    List.filter_eq_self.mpr fun x hx => hkeep x (List.mem_of_mem_drop hx)
  have hfirst : (hex.take 8).filter (· ≠ '-') = hex.take 8 := htake 0 8
  have hstep : ∀ k m, (hex.drop k).take m ++ hex.drop (k + m) = hex.drop k := fun k m => by
    rw [← List.drop_drop, List.take_append_drop]
  have hjoin : hex.take 8 ++ ((hex.drop 8).take 4 ++ ((hex.drop 12).take 4 ++
      ((hex.drop 16).take 4 ++ hex.drop 20))) = hex := by
    rw [hstep 16 4, hstep 12 4, hstep 8 4, List.take_append_drop]
  rw [htext]
  simp only [List.filter_append, hfirst, List.append_assoc]
  rw [List.filter_cons_of_neg (by decide), htake, List.filter_cons_of_neg (by decide), htake,
    List.filter_cons_of_neg (by decide), htake, List.filter_cons_of_neg (by decide), hdrop, hjoin,
    hhex]

lemma dropWhile_isBrace {cs : List Char} (h : ∀ c ∈ cs, isBrace c = false) :
    cs.dropWhile isBrace = cs := by
  cases cs with
  | nil => rfl
  | cons c cs => rw [List.dropWhile_cons, h c List.mem_cons_self, if_neg Bool.false_ne_true]

/-- **An id is read back from its text.** -/
theorem parse_str (id : UUID) : UUID.parse id.str.toList = some id := by
  have hurn : removeAll "urn:".toList 0 id.str.toList = id.str.toList :=
    removeAll_of_notMem (notMem_str (by decide) (by decide +kernel))
  have huuid : removeAll "uuid:".toList 0 id.str.toList = id.str.toList :=
    removeAll_of_notMem (notMem_str (by decide) (by decide +kernel))
  have hbraces : ∀ c ∈ id.str.toList, isBrace c = false := by
    intro c hc
    rcases mem_str hc with rfl | ⟨i, hi, rfl⟩
    · rfl
    · have hall : ∀ i : Fin 16, isBrace (digit i) = false := by decide +kernel
      exact hall ⟨i, hi⟩
  have hlt : id.int.val < 16 ^ 32 := id.int.isLt
  have hread : readDigits 16 32 0 (zeroPad 16 32 id.int ++ []) = some (id.int.val, []) :=
    readDigits_zeroPad (by decide) (by decide) hlt []
  rw [List.append_nil] at hread
  rw [UUID.parse, hurn, huuid, dropWhile_isBrace hbraces,
    dropWhile_isBrace fun c hc => hbraces c (List.mem_reverse.mp hc), List.reverse_reverse,
    filter_str, hread]
  exact dif_pos id.int.isLt

/-! ## Cursors -/

structure CursorPosition where
  createdAt : Datetime
  jobId : UUID
  deriving DecidableEq

/-- The text that a cursor encodes. -/
def CursorPosition.raw (position : CursorPosition) : String :=
  String.ofList (position.createdAt.isoformat ++ '|' :: position.jobId.str.toList)

/-- `encode_cursor` -/
def encodeCursor (position : CursorPosition) : String :=
  String.ofList (Base64.encode position.raw.toUTF8.data.toList)

/-- `decode_cursor`; `none` is `InvalidCursorError`. -/
def decodeCursor (cursor : String) : Option CursorPosition :=
  (Base64.decode cursor.toList).bind fun bytes =>
    (String.fromUTF8? ⟨bytes.toArray⟩).bind fun raw =>
      match raw.toList.dropWhile (· ≠ '|') with
      | [] => none
      | _ :: id =>
          (Datetime.fromisoformat (raw.toList.takeWhile (· ≠ '|'))).bind fun createdAt =>
            (UUID.parse id).map fun jobId => ⟨createdAt, jobId⟩

/-- **A cursor is read back.** -/
theorem decodeCursor_encodeCursor (position : CursorPosition) :
    decodeCursor (encodeCursor position) = some position := by
  have hbar : ∀ c ∈ position.createdAt.isoformat, decide (c ≠ '|') = true := by
    intro c hc
    refine decide_eq_true ?_
    rintro rfl
    exact Bool.false_ne_true (Datetime.isPrinted_of_mem_isoformat '|' hc)
  have hraw : position.raw.toList =
      position.createdAt.isoformat ++ '|' :: position.jobId.str.toList := String.toList_ofList
  have hutf8 : String.fromUTF8? ⟨position.raw.toUTF8.data.toList.toArray⟩ = some position.raw := by
    rw [Array.toArray_toList]
    exact dif_pos position.raw.isValidUTF8
  rw [decodeCursor, encodeCursor, String.toList_ofList, Base64.decode_encode, Option.bind_some,
    hutf8, Option.bind_some, hraw, List.dropWhile_append_of_pos hbar,
    List.takeWhile_append_of_pos hbar]
  simp [Datetime.fromisoformat_isoformat, parse_str]

end JobOrchestrator
