import Mathlib.Tactic.SplitIfs
import ScrapeRelay.Json.Reader
import ScrapeRelay.Json.Writer
import ScrapeRelay.Proofs.Text.Numerals

/-!
# Written JSON is read back

Reading the text of a value, with anything behind it that does not go on with a number, gives the
value and leaves the rest (`Reads`). This holds for single values, and for arrays and objects if it
holds for what is inside, so a value is read back from its text unless something in it has none of
its own (`parse?_render`).
-/

namespace ScrapeRelay.Json

open ScrapeRelay.Text

variable {value : Json} {input after rest : List Char} {fuel : Nat}

def escaped (text : List Char) : List Char := text.flatMap fun c => (escapeChar c).toList

theorem escaped_cons (c : Char) (text : List Char) :
    escaped (c :: text) = (escapeChar c).toList ++ escaped text := rfl

theorem foldl_escapeChar (out : String) (text : List Char) :
    text.foldl (fun out c => out ++ escapeChar c) out = out ++ String.ofList (escaped text) := by
  induction text generalizing out with
  | nil => simp [escaped]
  | cons c text ih => simp [ih, escaped, String.append_assoc]

theorem toList_writeText (out text : String) :
    (writeText out text).toList = out.toList ++ '\x22' :: (escaped text.toList ++ ['\x22']) := by
  simp [writeText, foldl_escapeChar]

theorem writeText_append (front out text : String) :
    writeText (front ++ out) text = front ++ writeText out text := by
  simp [writeText, foldl_escapeChar, String.append_assoc]

mutual

theorem write_append (front out : String) :
    (value : Json) → write (front ++ out) value = front ++ write out value
  | .null | .bool _ | .integer _ | .real _ | .brokenText | .array [] | .object [] => by
      simp [write, String.append_assoc]
  | .text content => by simp only [write, writeText_append]
  | .array (first :: others) => by
      simp only [write, String.append_assoc, write_append front _ first,
        writeElements_append front _ others]
  | .object ((name, first) :: others) => by
      simp only [write, String.append_assoc, writeText_append, write_append front _ first,
        writeMembers_append front _ others]

theorem writeElements_append (front out : String) :
    (values : List Json) → writeElements (front ++ out) values = front ++ writeElements out values
  | [] => by simp only [writeElements]
  | value :: others => by
      simp only [writeElements, String.append_assoc, write_append front _ value,
        writeElements_append front _ others]

theorem writeMembers_append (front out : String) :
    (members : List (Option String × Json)) →
      writeMembers (front ++ out) members = front ++ writeMembers out members
  | [] => by simp only [writeMembers]
  | (name, value) :: others => by
      simp only [writeMembers, String.append_assoc, writeText_append, write_append front _ value,
        writeMembers_append front _ others]

end

theorem write_eq (out : String) (value : Json) : write out value = out ++ render value := by
  simpa [render] using write_append out "" value

theorem writeElements_eq (out : String) (values : List Json) :
    writeElements out values = out ++ writeElements "" values := by
  simpa using writeElements_append out "" values

theorem writeMembers_eq (out : String) (members : List (Option String × Json)) :
    writeMembers out members = out ++ writeMembers "" members := by
  simpa using writeMembers_append out "" members

theorem render_text (text : String) :
    (render (.text text)).toList = '\x22' :: (escaped text.toList ++ ['\x22']) := by
  simp [render, write, toList_writeText]

theorem render_array (first : Json) (others : List Json) :
    (render (.array (first :: others))).toList =
      '[' :: ((render first).toList ++ (writeElements "" others).toList ++ [']']) := by
  rw [render, write, writeElements_eq, write_eq]
  simp

theorem writeElements_cons (value : Json) (others : List Json) :
    (writeElements "" (value :: others)).toList =
      ',' :: ((render value).toList ++ (writeElements "" others).toList) := by
  rw [writeElements, writeElements_eq, write_eq]
  simp

theorem render_object (name : String) (first : Json) (others : List (Option String × Json)) :
    (render (.object ((some name, first) :: others))).toList =
      '\x7b' :: '\x22' :: (escaped name.toList ++ '\x22' :: ':' ::
        ((render first).toList ++ (writeMembers "" others).toList ++ ['\x7d'])) := by
  rw [render, write, writeMembers_eq, write_eq]
  simp [toList_writeText]

theorem writeMembers_cons (name : String) (value : Json) (others : List (Option String × Json)) :
    (writeMembers "" ((some name, value) :: others)).toList =
      ',' :: '\x22' :: (escaped name.toList ++ '\x22' :: ':' ::
        ((render value).toList ++ (writeMembers "" others).toList)) := by
  rw [writeMembers, writeMembers_eq, write_eq]
  simp [toList_writeText]

theorem escapeUnit_control :
    ∀ code < 0x20, (escapeUnit code).toList =
        ['\\', 'u', '0', '0', Nat.digitChar (code / 16), Nat.digitChar (code % 16)] ∧
      hexQuad? '0' '0' (Nat.digitChar (code / 16)) (Nat.digitChar (code % 16)) = some code := by
  decide

theorem readString_escapeChar (c : Char) (done : List Char) :
    readString (fuel + 1) (some done) ((escapeChar c).toList ++ rest) =
      readString fuel (some (c :: done)) rest := by
  by_cases short : c = '\x22' ∨ c = '\\' ∨ c = '\n' ∨ c = '\r' ∨ c = '\t' ∨ c = '\x08' ∨
      c = '\x0c'
  · obtain rfl | rfl | rfl | rfl | rfl | rfl | rfl := short <;>
      simp [escapeChar, readString, shortEscape?]
  · simp only [not_or] at short
    obtain ⟨quote, backslash, newline, carriage, tab, backspace, feed⟩ := short
    simp only [escapeChar, quote, backslash, newline, carriage, tab, backspace, feed, if_false]
    split
    · rename_i control
      obtain ⟨written, read⟩ := escapeUnit_control c.toNat control
      rw [written]
      have high : ¬0xD800 ≤ c.toNat := by omega
      have low : ¬0xDC00 ≤ c.toNat := by omega
      simp [readString, read, high, low]
    · rename_i printable
      simp [readString, quote, backslash, printable]

theorem readString_escaped (content done : List Char) (enough : content.length < fuel) :
    readString fuel (some done) (escaped content ++ '\x22' :: rest) =
      some (some (String.ofList (done.reverse ++ content)), rest) := by
  induction content generalizing done fuel with
  | nil =>
      obtain ⟨fuel, rfl⟩ := Nat.exists_eq_succ_of_ne_zero (Nat.ne_of_gt enough)
      simp [escaped, readString]
  | cons c content ih =>
      obtain ⟨fuel, rfl⟩ := Nat.exists_eq_succ_of_ne_zero (Nat.ne_of_gt (Nat.zero_lt_of_lt enough))
      rw [escaped_cons, List.append_assoc, readString_escapeChar,
        ih (c :: done) (by simpa using enough)]
      simp

/-- No character of a number comes next. -/
def Stops (after : List Char) : Prop :=
  ∀ c ∈ after.head?, isDigit c = false ∧ c ≠ '.' ∧ c ≠ 'e' ∧ c ≠ 'E'

def minus (negative : Bool) : List Char := if negative then ['-'] else []

theorem spanDigits_append {digits tail : List Char} (decimal : ∀ c ∈ digits, isDigit c = true)
    (ends : ∀ c ∈ tail.head?, isDigit c = false) :
    spanDigits (digits ++ tail) = (digits, tail) := by
  unfold spanDigits
  rw [List.takeWhile_append_of_pos decimal, List.dropWhile_append_of_pos decimal]
  cases tail with
  | nil => simp
  | cons c tail => simp [ends c rfl]

theorem digits_toDigits (value : Nat) : ∀ c ∈ Nat.toDigits 10 value, isDigit c = true :=
  fun _ => isDigit_of_mem_toDigits

theorem readExponent_of_stops (stops : Stops after) : readExponent after = some (none, after) := by
  cases after with
  | nil => rfl
  | cons c after =>
      obtain ⟨_, _, small, capital⟩ := stops c rfl
      simp [readExponent, small, capital]

theorem readExponent_negative (places : Nat) (stops : Stops after) :
    readExponent ('e' :: '-' :: (Nat.toDigits 10 places ++ after)) =
      some (some (-Int.ofNat places), after) := by
  have span := spanDigits_append (digits_toDigits places) fun c first => (stops c first).1
  have total := numeral_toDigits places
  obtain ⟨first, more, shape, _⟩ := exists_toDigits_eq_cons places
  rw [shape] at total
  rw [shape, List.cons_append] at span ⊢
  simp [readExponent, span, total]

/-- The digits of a number with whatever exponent follows them. -/
theorem readNumber_digits {tail : List Char} {exponent : Option Int} (negative : Bool) (count : Nat)
    (ends : ∀ c ∈ tail.head?, isDigit c = false ∧ c ≠ '.')
    (read : readExponent tail = some (exponent, after)) :
    readNumber (minus negative ++ Nat.toDigits 10 count ++ tail) =
      some (match exponent with
        | none => wholeNumber negative (Nat.toDigits 10 count)
        | some exponent => scaledNumber negative (Nat.toDigits 10 count) [] exponent, after) := by
  have span := spanDigits_append (digits_toDigits count) fun c first => (ends c first).1
  have fraction : readFraction tail = some (none, tail) := by
    cases tail with
    | nil => rfl
    | cons c tail =>
        have point := (ends c rfl).2
        simp [readFraction, point]
  obtain ⟨first, more, shape, digit⟩ := exists_toDigits_eq_cons count
  have unpadded : first = '0' → more = [] := by
    rintro rfl
    exact rest_of_zero_first shape
  have unsigned : first ≠ '-' := by
    rintro rfl
    exact absurd digit (by decide)
  rw [shape, List.cons_append] at span
  rw [shape]
  cases negative <;> cases exponent <;>
    simpa [readNumber, minus, unsigned, span, fraction, read] using unpadded

/-- The number that digits make when they are appended to a significand. -/
def appended (significand : Nat) (digits : List Char) : Nat :=
  digits.foldl (fun value digit => value * 10 + digitValue digit) significand

theorem le_appended (significand : Nat) (digits : List Char) :
    significand ≤ appended significand digits := by
  induction digits generalizing significand with
  | nil => exact Nat.le_refl _
  | cons digit digits ih =>
      have larger : significand ≤ significand * 10 + digitValue digit := by omega
      exact Nat.le_trans larger (ih _)

theorem collect_of_fits {significand : Nat} {digits : List Char}
    (fits : appended significand digits < wordLimit) :
    collect significand digits = (appended significand digits, 0) := by
  induction digits generalizing significand with
  | nil => rfl
  | cons digit digits ih =>
      have next := Nat.lt_of_le_of_lt (le_appended _ digits) fits
      rw [collect, if_pos next]
      exact ih fits

theorem collect_toDigits {count : Nat} (fits : count < wordLimit) :
    collect 0 (Nat.toDigits 10 count) = (count, 0) := by
  have total : appended 0 (Nat.toDigits 10 count) = count := numeral_toDigits count
  rw [collect_of_fits (by rwa [total]), total]

theorem wholeNumber_unsigned {count : Nat} (fits : count < wordLimit) :
    wholeNumber false (Nat.toDigits 10 count) = .integer (Int.ofNat count) := by
  simp only [wholeNumber, collect_toDigits fits]
  rfl

theorem wholeNumber_signed {count : Nat} (filled : 0 < count)
    (fits : count ≤ Int64.minValue.toInt.natAbs) :
    wholeNumber true (Nat.toDigits 10 count) = .integer (-Int.ofNat count) := by
  have word : count < wordLimit := Nat.lt_of_le_of_lt fits (by decide)
  simp only [wholeNumber, collect_toDigits word, filled, fits]
  rfl

/-- What can stand first in an array: it is neither blank nor the end of one. -/
def Opens (text : List Char) : Prop :=
  ∃ first more, text = first :: more ∧ isSpace first = false ∧ first ≠ ']'

/-- A value is read back from its text, whatever follows, at a cost of two units of fuel for each
character. -/
structure Reads (value : Json) : Prop where
  opens : Opens (render value).toList
  reads : ∀ fuel after, 2 * (render value).toList.length ≤ fuel → Stops after →
    readValue fuel ((render value).toList ++ after) = some (value, after)

theorem Reads.of_succ
    (opens : Opens (render value).toList)
    (reads : ∀ fuel after, 2 * (render value).toList.length ≤ fuel + 1 → Stops after →
      readValue (fuel + 1) ((render value).toList ++ after) = some (value, after)) :
    Reads value := by
  refine ⟨opens, fun fuel after enough stops => ?_⟩
  obtain ⟨first, more, written, _⟩ := opens
  cases fuel with
  | zero => simp [written] at enough
  | succ fuel => exact reads fuel after enough stops

theorem readValue_number {first : Char} (starts : isDigit first = true ∨ first = '-') :
    readValue (fuel + 1) (first :: rest) = readNumber (first :: rest) := by
  have others : ['\x22', '[', '\x7b', 't', 'f', 'n', ' ', '\n', '\t', '\r'].all
      (fun c => !isDigit c && c != '-') = true := by decide
  have apart : ∀ c ∈ ['\x22', '[', '\x7b', 't', 'f', 'n', ' ', '\n', '\t', '\r'], first ≠ c := by
    rintro c member rfl
    have other := List.all_eq_true.mp others first member
    obtain digit | sign := starts
    · simp [digit] at other
    · simp [sign] at other
  simp only [List.forall_mem_cons] at apart
  simp [readValue, skipSpace, isSpace, apart]

theorem readValue_digits {tail : List Char} {exponent : Option Int} (negative : Bool) (count : Nat)
    (ends : ∀ c ∈ tail.head?, isDigit c = false ∧ c ≠ '.')
    (read : readExponent tail = some (exponent, after)) :
    readValue (fuel + 1) (minus negative ++ Nat.toDigits 10 count ++ tail) =
      some (match exponent with
        | none => wholeNumber negative (Nat.toDigits 10 count)
        | some exponent => scaledNumber negative (Nat.toDigits 10 count) [] exponent, after) := by
  rw [← readNumber_digits negative count ends read]
  cases negative with
  | true => exact readValue_number (.inr rfl)
  | false =>
      obtain ⟨first, more, shape, digit⟩ := exists_toDigits_eq_cons count
      rw [shape]
      exact readValue_number (.inl digit)

theorem opens_digits (negative : Bool) (count : Nat) (tail : List Char) :
    Opens (minus negative ++ Nat.toDigits 10 count ++ tail) := by
  cases negative with
  | true => exact ⟨'-', _, rfl, by decide, by decide⟩
  | false =>
      obtain ⟨first, more, shape, digit⟩ := exists_toDigits_eq_cons count
      have others : ∀ c, isSpace c = true ∨ c = ']' → isDigit c = false := by
        simp only [isSpace, Bool.or_eq_true, decide_eq_true_eq]
        rintro c ((((rfl | rfl) | rfl) | rfl) | rfl) <;> decide
      refine ⟨first, more ++ tail, by rw [shape]; rfl, ?_, ?_⟩
      · exact Bool.eq_false_iff.mpr fun space => by simp [others first (.inl space)] at digit
      · exact fun bracket => by simp [others first (.inr bracket)] at digit

theorem reads_integer {number : Int} (low : Int64.minValue.toInt ≤ number)
    (high : number < wordLimit) : Reads (.integer number) := by
  have written : (render (.integer number)).toList =
      minus (number < 0) ++ Nat.toDigits 10 number.natAbs := by
    by_cases negative : number < 0 <;> simp [render, write, decimal, minus, negative]
  have whole : wholeNumber (number < 0) (Nat.toDigits 10 number.natAbs) = .integer number := by
    have lowest : Int64.minValue.toInt = -2 ^ 63 := by decide
    cases number with
    | ofNat count => exact wholeNumber_unsigned (Int.ofNat_lt.mp high)
    | negSucc count =>
        rw [decide_eq_true (Int.negSucc_lt_zero count)]
        exact wholeNumber_signed (Nat.succ_pos count) (by omega)
  refine .of_succ ?_ fun fuel after enough stops => ?_
  · have opens := opens_digits (number < 0) number.natAbs []
    rwa [List.append_nil, ← written] at opens
  · rw [written, readValue_digits _ _ (fun c first => ⟨(stops c first).1, (stops c first).2.1⟩)
      (readExponent_of_stops stops), whole]

theorem toList_realText {real : Binary64} (finite : real.isFinite = true) :
    (realText real).toList = minus real.isNegative ++ Nat.toDigits 10 real.exactDecimal.1 ++
      'e' :: '-' :: Nat.toDigits 10 real.exactDecimal.2 := by
  cases sign : real.isNegative <;> simp [realText, finite, sign, decimal, minus]

theorem readValue_realText {real : Binary64} (finite : real.isFinite = true) :
    ∃ number, ∀ fuel after, Stops after →
      readValue (fuel + 1) ((realText real).toList ++ after) = some (number, after) := by
  refine ⟨scaledNumber real.isNegative (Nat.toDigits 10 real.exactDecimal.1) []
    (-Int.ofNat real.exactDecimal.2), fun fuel after stops => ?_⟩
  rw [toList_realText finite, List.append_assoc, List.cons_append, List.cons_append]
  exact readValue_digits _ _ (by simp; decide) (readExponent_negative _ stops)

theorem stops_nil : Stops [] := by simp [Stops]

theorem reads_real {real : Binary64} (finite : real.isFinite = true)
    (exact : parse? (realText real) = some (.real real)) : Reads (.real real) := by
  have written : render (.real real) = realText real := by simp [render, write]
  obtain ⟨number, read⟩ := readValue_realText finite
  have same : number = .real real := by
    have whole := read (3 * (realText real).toList.length + 2) [] stops_nil
    rw [List.append_nil] at whole
    simpa [parse?, whole, skipSpace] using exact
  subst same
  have opens := opens_digits real.isNegative real.exactDecimal.1
    ('e' :: '-' :: Nat.toDigits 10 real.exactDecimal.2)
  rw [← toList_realText finite, ← written] at opens
  refine .of_succ opens fun fuel after _ stops => ?_
  rw [written]
  exact read fuel after stops

theorem reads_null : Reads .null :=
  .of_succ ⟨'n', _, rfl, by decide, by decide⟩ fun _ _ _ _ => rfl

theorem reads_bool (flag : Bool) : Reads (.bool flag) := by
  cases flag with
  | true => exact .of_succ ⟨'t', _, rfl, by decide, by decide⟩ fun _ _ _ _ => rfl
  | false => exact .of_succ ⟨'f', _, rfl, by decide, by decide⟩ fun _ _ _ _ => rfl

theorem length_le_length_escaped (content : List Char) :
    content.length ≤ (escaped content).length := by
  induction content with
  | nil => simp
  | cons c content ih =>
      have filled : 0 < (escapeChar c).toList.length := by
        unfold escapeChar
        split_ifs <;> simp [escapeUnit]
      rw [escaped_cons, List.length_append, List.length_cons]
      omega

/-- A whole string, after its opening quote. -/
theorem readString_quoted (fuel : Nat) (content : String) (after : List Char)
    (enough : (escaped content.toList).length < fuel) :
    readString fuel (some []) (escaped content.toList ++ '\x22' :: after) =
      some (some content, after) := by
  have shorter := length_le_length_escaped content.toList
  rw [readString_escaped _ _ (Nat.lt_of_le_of_lt shorter enough)]
  simp

theorem reads_text (content : String) : Reads (.text content) := by
  refine .of_succ ⟨'\x22', _, render_text content, by decide, by decide⟩ fun fuel after _ _ => ?_
  have read := readString_quoted ((escaped content.toList).length + (after.length + 1) + 1)
    content after (by omega)
  rw [render_text]
  simp [readValue, skipSpace, isSpace, read]

theorem stops_cons {c : Char} (apart : isDigit c = false ∧ c ≠ '.' ∧ c ≠ 'e' ∧ c ≠ 'E') :
    Stops (c :: after) := by
  rintro d member
  cases member
  exact apart

theorem readElements_of_reads (fuel : Nat) (after : List Char) {first : Json} {others : List Json}
    (firstReads : Reads first) (othersRead : ∀ value ∈ others, Reads value)
    (enough : 2 * ((render first).toList.length + (writeElements "" others).toList.length + 1) ≤
      fuel) :
    readElements fuel ((render first).toList ++ (writeElements "" others).toList ++ ']' :: after) =
      some (first :: others, after) := by
  induction others generalizing first fuel with
  | nil =>
      obtain ⟨fuel, rfl⟩ := Nat.exists_eq_succ_of_ne_zero (n := fuel) (by omega)
      have read := firstReads.reads fuel (']' :: after) (by omega) (stops_cons (by decide))
      simp [writeElements, readElements, read, skipSpace, isSpace]
  | cons next others ih =>
      obtain ⟨fuel, rfl⟩ := Nat.exists_eq_succ_of_ne_zero (n := fuel) (by omega)
      have read (tail : List Char) :=
        firstReads.reads fuel (',' :: tail) (by omega) (stops_cons (by decide))
      -- The list and the element both go one level down, and the comma alone pays for that.
      rw [writeElements_cons] at enough ⊢
      simp only [List.length_cons, List.length_append] at enough
      have tail := ih fuel (othersRead next List.mem_cons_self)
        (fun value member => othersRead value (List.mem_cons_of_mem _ member)) (by omega)
      simp only [List.append_assoc] at tail
      simp [readElements, read, skipSpace, isSpace, tail]

theorem readMembers_of_reads (fuel : Nat) (after : List Char) (name : String) {first : Json}
    {others : List (Option String × Json)} (firstReads : Reads first)
    (othersRead : ∀ member ∈ others, ∃ name value, member = (some name, value) ∧ Reads value)
    (enough : 2 * ((escaped name.toList).length + (render first).toList.length +
      (writeMembers "" others).toList.length + 4) ≤ fuel) :
    readMembers fuel ('\x22' :: (escaped name.toList ++ '\x22' :: ':' ::
        ((render first).toList ++ (writeMembers "" others).toList ++ '\x7d' :: after))) =
      some ((some name, first) :: others, after) := by
  induction others generalizing name first fuel with
  | nil =>
      obtain ⟨fuel, rfl⟩ := Nat.exists_eq_succ_of_ne_zero (n := fuel) (by omega)
      have read := firstReads.reads fuel ('\x7d' :: after) (by omega) (stops_cons (by decide))
      have named {more} (tail : List Char) :=
        readString_quoted ((escaped name.toList).length + (more + 1) + 1) name tail (by omega)
      simp [writeMembers, readMembers, named, read, skipSpace, isSpace]
  | cons next others ih =>
      obtain ⟨nextName, nextValue, rfl, nextReads⟩ := othersRead next List.mem_cons_self
      obtain ⟨fuel, rfl⟩ := Nat.exists_eq_succ_of_ne_zero (n := fuel) (by omega)
      have read (tail : List Char) :=
        firstReads.reads fuel (',' :: tail) (by omega) (stops_cons (by decide))
      have named {more} (tail : List Char) :=
        readString_quoted ((escaped name.toList).length + (more + 1) + 1) name tail (by omega)
      rw [writeMembers_cons] at enough ⊢
      simp only [List.length_cons, List.length_append] at enough
      have tail := ih fuel nextName nextReads
        (fun member inside => othersRead member (List.mem_cons_of_mem _ inside)) (by omega)
      simp only [List.append_assoc] at tail
      simp [readMembers, named, read, skipSpace, isSpace, tail]

theorem reads_array {elements : List Json} (elementsRead : ∀ value ∈ elements, Reads value) :
    Reads (.array elements) := by
  cases elements with
  | nil =>
      refine .of_succ ⟨'[', _, rfl, by decide, by decide⟩ fun fuel after _ _ => ?_
      simp [render, write, readValue, skipSpace, isSpace]
  | cons first others =>
      refine .of_succ ⟨'[', _, render_array first others, by decide, by decide⟩
        fun fuel after enough _ => ?_
      obtain ⟨start, more, shape, solid, notClosing⟩ :=
        (elementsRead first List.mem_cons_self).opens
      rw [render_array] at enough ⊢
      simp only [List.length_cons, List.length_append, List.length_nil] at enough
      have read := readElements_of_reads fuel after (elementsRead first List.mem_cons_self)
        (fun value member => elementsRead value (List.mem_cons_of_mem _ member)) (by omega)
      rw [shape] at read ⊢
      simp only [List.append_assoc, List.cons_append] at read
      have bracket : isSpace '[' = false := rfl
      simp [readValue, skipSpace, bracket, solid, notClosing, read]

theorem reads_object {members : List (Option String × Json)}
    (membersRead : ∀ member ∈ members, ∃ name value, member = (some name, value) ∧ Reads value) :
    Reads (.object members) := by
  cases members with
  | nil =>
      refine .of_succ ⟨'\x7b', _, rfl, by decide, by decide⟩ fun fuel after _ _ => ?_
      simp [render, write, readValue, skipSpace, isSpace]
  | cons first others =>
      obtain ⟨name, value, rfl, reads⟩ := membersRead first List.mem_cons_self
      refine .of_succ ⟨'\x7b', _, render_object name value others, by decide, by decide⟩
        fun fuel after enough _ => ?_
      rw [render_object] at enough ⊢
      simp only [List.length_cons, List.length_append, List.length_nil] at enough
      have read := readMembers_of_reads fuel after name reads
        (fun member inside => membersRead member (List.mem_cons_of_mem _ inside)) (by omega)
      simp only [List.append_assoc] at read
      simp [readValue, skipSpace, isSpace, read]

/-- A finite value that is printed and read again without loss. -/
def PrintsExactly (number : Binary64) : Prop := parse? (realText number) = some (.real number)

/-- A value whose text says all of it: its integers fit 64 bits, its other numbers are finite and
printed without loss, and its strings and names are whole. -/
inductive Legible : Json → Prop
  | null : Legible .null
  | bool (flag : Bool) : Legible (.bool flag)
  | integer {number : Int} (low : Int64.minValue.toInt ≤ number) (high : number < wordLimit) :
      Legible (.integer number)
  | real {number : Binary64} (finite : number.isFinite = true)
      (exact : PrintsExactly number) : Legible (.real number)
  | text (content : String) : Legible (.text content)
  | array {elements : List Json} (legible : ∀ value ∈ elements, Legible value) :
      Legible (.array elements)
  | object {members : List (Option String × Json)}
      (named : ∀ member ∈ members, ∃ name, member.1 = some name)
      (legible : ∀ member ∈ members, Legible member.2) : Legible (.object members)

theorem Legible.reads (legible : Legible value) : Reads value := by
  induction legible with
  | null => exact reads_null
  | bool flag => exact reads_bool flag
  | integer low high => exact reads_integer low high
  | real finite exact => exact reads_real finite exact
  | text content => exact reads_text content
  | array _ elementsRead => exact reads_array elementsRead
  | object named _ membersRead =>
      refine reads_object fun member inside => ?_
      obtain ⟨name, same⟩ := named member inside
      exact ⟨name, member.2, Prod.ext same rfl, membersRead member inside⟩

/-- A legible value is read back from its text. -/
theorem parse?_render (legible : Legible value) : parse? (render value) = some value := by
  have read := legible.reads.reads (3 * (render value).toList.length + 3) [] (by omega) stops_nil
  rw [List.append_nil] at read
  simp [parse?, read, skipSpace]

end ScrapeRelay.Json
