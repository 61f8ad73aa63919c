import Sentential.Proofs.Text.Pieces
import Sentential.Report.Basic
import Sentential.Text.Radix

/-!
# Reading reports

A report is printed as a JSON text. `Report.read?` reads such texts as far as their numbers are integers and no
escape stands for a surrogate: values at any depth, the fields of a record in any order, and blanks and line ends
wherever they may stand. It reads a printed report back as it was, up to the order of the fields in each record, which
is that of their names (`read?_print_append`). So nothing of a report is lost in print, and what a printed report holds
can be said without saying how it is printed.
-/

namespace Sentential.Text

theorem toList_toString (n : Nat) : (toString n).toList = Nat.toDigits 10 n := by
  rw [Nat.toString_eq_ofList_toDigits, String.toList_ofList]

theorem toList_toString_negSucc (n : Nat) : (toString (Int.negSucc n)).toList = '-' :: (toString (n + 1)).toList :=
  String.toList_append (s := "-") (t := toString (n + 1))

theorem isDigit_of_mem_toString {n : Nat} {c : Char} (h : c ∈ (toString n).toList) : c.isDigit = true := by
  rw [toList_toString] at h
  exact Nat.isDigit_of_mem_toDigits (by decide) (by decide) h

end Sentential.Text

namespace Sentential.Report

/-! ## The reader -/

/-- The characters that may stand between the parts of a value. -/
def isGap (c : Char) : Bool := c == ' ' || c == '\t' || c == '\n' || c == '\r'

/-- The character that a backslash and another character stand for. -/
def unescaped? : Char → Option Char
  | '"' => some '"'
  | '\\' => some '\\'
  | '/' => some '/'
  | 'b' => some '\x08'
  | 'f' => some '\x0c'
  | 'n' => some '\n'
  | 'r' => some '\r'
  | 't' => some '\t'
  | _ => none

/-- The character with a hexadecimal number. A surrogate is none. -/
def numbered? (digits : List Char) : Option Char :=
  let n := Text.ofDigits 16 digits
  if digits.all (Text.isDigitOf 16) ∧ n.isValidChar then some (Char.ofNat n) else none

/-- The characters of a text up to the quotation mark that closes it, and what follows. -/
def readText : List Char → Option (List Char × List Char)
  | [] => none
  | '"' :: cs => some ([], cs)
  | '\\' :: 'u' :: a :: b :: c :: d :: cs => do
    let (s, rest) ← readText cs
    return ((← numbered? [a, b, c, d]) :: s, rest)
  | '\\' :: c :: cs => do
    let (s, rest) ← readText cs
    return ((← unescaped? c) :: s, rest)
  | c :: cs => do
    let (s, rest) ← readText cs
    if c.toNat < 0x20 then none else return (c :: s, rest)

/-- The number at the beginning, which has no needless zeros, and what follows. -/
def readNat (cs : List Char) : Option (Nat × List Char) :=
  let digits := cs.takeWhile Char.isDigit
  let n := Nat.ofDigitChars 10 digits 0
  if Nat.toDigits 10 n = digits then some (n, cs.dropWhile Char.isDigit) else none

/-- The integer at the beginning, and what follows. -/
def readInt : List Char → Option (Int × List Char)
  | '-' :: cs => (readNat cs).map fun (n, rest) => (-n, rest)
  | cs => (readNat cs).map fun (n, rest) => (n, rest)

section Parts

variable {α : Type}

/-- At most `n` parts with commas between them, up to the closing bracket, and what follows. -/
def readParts (part : List Char → Option (α × List Char)) (closing : Char) :
    Nat → List Char → Option (List α × List Char)
  | 0, _ => none
  | n + 1, cs => do
    let (a, cs) ← part cs
    match cs.dropWhile isGap with
    | [] => none
    | c :: cs =>
      if c = closing then return ([a], cs)
      else if c = ',' then do
        let (as, rest) ← readParts part closing n cs
        return (a :: as, rest)
      else none

/-- The parts of a list or record behind its opening bracket, and what follows. -/
def readBracketed (part : List Char → Option (α × List Char)) (closing : Char) (cs : List Char) :
    Option (List α × List Char) :=
  let inner := cs.dropWhile isGap
  if inner.head? = some closing then some ([], inner.tail) else readParts part closing cs.length cs

end Parts

/-- The field at the beginning, whose value is read by `value`, and what follows. -/
def readField (value : List Char → Option (Report × List Char)) (cs : List Char) :
    Option ((String × Report) × List Char) :=
  match cs.dropWhile isGap with
  | '"' :: cs => do
    let (name, cs) ← readText cs
    match cs.dropWhile isGap with
    | ':' :: cs => do
      let (r, rest) ← value cs
      return ((String.ofList name, r), rest)
    | _ => none
  | _ => none

/-- The value at the beginning, nested less than `n` deep, and what follows. -/
def readValue : Nat → List Char → Option (Report × List Char)
  | 0, _ => none
  | n + 1, cs =>
    match cs.dropWhile isGap with
    | 'n' :: 'u' :: 'l' :: 'l' :: rest => some (null, rest)
    | 't' :: 'r' :: 'u' :: 'e' :: rest => some (bool true, rest)
    | 'f' :: 'a' :: 'l' :: 's' :: 'e' :: rest => some (bool false, rest)
    | '"' :: cs => (readText cs).map fun (s, rest) => (text (String.ofList s), rest)
    | '[' :: cs => (readBracketed (readValue n) ']' cs).map fun (items, rest) => (list items, rest)
    | '{' :: cs => (readBracketed (readField (readValue n)) '}' cs).map fun (fields, rest) => (record fields, rest)
    | cs => (readInt cs).map fun (i, rest) => (int i, rest)

/-- The report that a text holds, with nothing but gaps around it. No value is nested deeper than its text is long. -/
def read? (s : String) : Option Report :=
  match readValue (s.length + 1) s.toList with
  | some (r, rest) => if rest.all isGap then some r else none
  | none => none

/-- A text may be laid out in another way than reports are. -/
example : read? "[ 10,\"\\u00e9\"]" = some (list [int 10, text "é"]) := by rfl

/-! ## The order of fields -/

mutual

/-- The report with the fields of each record in the order of their names. -/
def sorted : Report → Report
  | null => null
  | bool b => bool b
  | int i => int i
  | text s => text s
  | list items => list (sortedItems items)
  | record fields => record ((sortedFields fields).mergeSort fun a b => decide (a.1 ≤ b.1))

/-- The items of a list with their fields in order. -/
def sortedItems : List Report → List Report
  | [] => []
  | r :: rest => r.sorted :: sortedItems rest

/-- The fields of a record with their own fields in order. -/
def sortedFields : List (String × Report) → List (String × Report)
  | [] => []
  | (name, r) :: rest => (name, r.sorted) :: sortedFields rest

end

variable {cs rest : List Char} {depth n : Nat} {c : Char}

theorem itemChars_eq_map (items : List Report) : itemChars depth items = items.map (chars depth) := by
  induction items with
  | nil => rfl
  | cons r items ih => rw [itemChars, ih, List.map_cons]

theorem fieldChars_eq_map (fields : List (String × Report)) :
    fieldChars depth fields = fields.map fun (name, r) => (name, chars depth r) := by
  induction fields with
  | nil => rfl
  | cons field fields ih => rw [fieldChars, ih, List.map_cons]

theorem sortedItems_eq_map (items : List Report) : sortedItems items = items.map sorted := by
  induction items with
  | nil => rfl
  | cons r items ih => rw [sortedItems, ih, List.map_cons]

theorem sortedFields_eq_map (fields : List (String × Report)) :
    sortedFields fields = fields.map fun (name, r) => (name, r.sorted) := by
  induction fields with
  | nil => rfl
  | cons field fields ih => rw [sortedFields, ih, List.map_cons]

/-- Fields are put in order by name alone, whatever becomes of their values. -/
theorem mergeSort_map_snd {α β : Type} (f : α → β) (fields : List (String × α)) :
    (fields.map fun (name, a) => (name, f a)).mergeSort (fun a b => decide (a.1 ≤ b.1)) =
      (fields.mergeSort fun a b => decide (a.1 ≤ b.1)).map fun (name, a) => (name, f a) := by
  symm
  apply List.map_mergeSort
  intros
  rfl

theorem chars_list (items : List Report) :
    chars depth (list items) = bracketed depth '[' ']' (items.map (chars (depth + 1))) := by
  rw [chars, itemChars_eq_map]

/-- The characters of a field at a depth. -/
def spelledField (depth : Nat) (field : String × Report) : List Char :=
  quoted field.1 ++ [':', ' '] ++ chars depth field.2

theorem chars_record (fields : List (String × Report)) :
    chars depth (record fields) = bracketed depth '{' '}'
      ((fields.mergeSort fun a b => decide (a.1 ≤ b.1)).map (spelledField (depth + 1))) := by
  rw [chars, fieldChars_eq_map, sortedByName, mergeSort_map_snd, List.map_map]
  rfl

/-! ## Texts and numbers -/

/-- The digits of a control character: two zeros and two more, which are read back. -/
theorem leftpad_toDigits : ∀ n < 0x20,
    (Nat.toDigits 16 n).leftpad 4 '0' = ['0', '0', Nat.digitChar (n / 16), Nat.digitChar (n % 16)] ∧
      numbered? ['0', '0', Nat.digitChar (n / 16), Nat.digitChar (n % 16)] = some (Char.ofNat n) := by
  decide +kernel

theorem readText_of_unescaped {e : Char} (hc : unescaped? e = some c) (he : e ≠ 'u') (cs : List Char) :
    readText ('\\' :: e :: cs) = (readText cs).map fun (s, rest) => (c :: s, rest) := by
  cases h : readText cs <;> simp [readText, h, hc, he]

/-- A character as it is escaped is read as the character. -/
theorem readText_escaped_append (c : Char) (cs : List Char) :
    readText (escaped c ++ cs) = (readText cs).map fun (s, rest) => (c :: s, rest) := by
  unfold escaped
  split_ifs with hquoted hn hr ht hf hb hcontrol
  · rcases hquoted with rfl | rfl
    · exact readText_of_unescaped rfl (by decide) cs
    · exact readText_of_unescaped rfl (by decide) cs
  · subst hn
    exact readText_of_unescaped rfl (by decide) cs
  · subst hr
    exact readText_of_unescaped rfl (by decide) cs
  · subst ht
    exact readText_of_unescaped rfl (by decide) cs
  · subst hf
    exact readText_of_unescaped rfl (by decide) cs
  · subst hb
    exact readText_of_unescaped rfl (by decide) cs
  · obtain ⟨hdigits, hnumbered⟩ := leftpad_toDigits c.toNat hcontrol
    rw [Char.ofNat_toNat] at hnumbered
    rw [hdigits]
    cases h : readText cs <;> simp [readText, h, hnumbered]
  · obtain ⟨hquote, hbackslash⟩ := not_or.1 hquoted
    cases h : readText cs <;> simp [readText, h, hbackslash, hcontrol]

/-- The characters of a text are read up to the quotation mark behind them. -/
theorem readText_flatMap_escaped (s rest : List Char) :
    readText (s.flatMap escaped ++ '"' :: rest) = some (s, rest) := by
  induction s with
  | nil => rfl
  | cons c s ih => rw [List.flatMap_cons, List.append_assoc, readText_escaped_append, ih, Option.map_some]

/-- A number ends in front of the characters: they do not begin with a digit. -/
def Ends (cs : List Char) : Prop := ∀ c ∈ cs.head?, c.isDigit = false

theorem ends_cons (h : c.isDigit = false) : Ends (c :: cs) := by
  intro d hd
  cases hd
  exact h

/-- A natural number is read up to the end of its digits. -/
theorem readNat_toString_append (n : Nat) (hrest : Ends rest) :
    readNat ((toString n).toList ++ rest) = some (n, rest) := by
  have hdigits : ∀ c ∈ (toString n).toList, c.isDigit = true := fun c hc => Text.isDigit_of_mem_toString hc
  have htake : rest.takeWhile Char.isDigit = [] := by
    cases rest with
    | nil => rfl
    | cons c cs => exact List.takeWhile_cons_of_neg (by simp [hrest c rfl])
  have hdrop : rest.dropWhile Char.isDigit = rest := by
    cases rest with
    | nil => rfl
    | cons c cs => exact List.dropWhile_cons_of_neg (by simp [hrest c rfl])
  simp only [readNat, List.takeWhile_append_of_pos hdigits, List.dropWhile_append_of_pos hdigits, htake, hdrop,
    List.append_nil]
  rw [Text.toList_toString, Nat.ofDigitChars_ten_toDigits, if_pos rfl]

/-- A natural number is printed with a digit in front. -/
theorem exists_toString_eq_cons (n : Nat) : ∃ d ds, (toString n).toList = d :: ds ∧ d.isDigit = true := by
  have hne : (toString n).toList ≠ [] := Text.toList_toString n ▸ Nat.toDigits_ne_nil
  obtain ⟨d, ds, hds⟩ := List.exists_cons_of_ne_nil hne
  exact ⟨d, ds, hds, Text.isDigit_of_mem_toString (hds ▸ List.mem_cons_self)⟩

/-- An integer is printed with a digit or a minus sign in front, and read up to the end of its digits. -/
theorem readInt_toString_append (i : Int) (hrest : Ends rest) :
    ∃ c cs, (toString i).toList ++ rest = c :: cs ∧ (c.isDigit = true ∨ c = '-') ∧
      readInt (c :: cs) = some (i, rest) := by
  cases i with
  | ofNat n =>
    obtain ⟨d, ds, hds, hd⟩ := exists_toString_eq_cons n
    have hminus : d ≠ '-' := by
      rintro rfl
      exact absurd hd (by decide)
    have hnat := readNat_toString_append n hrest
    rw [hds, List.cons_append] at hnat
    exact ⟨d, ds ++ rest, congrArg (· ++ rest) hds, .inl hd, by simp [readInt, hminus, hnat]⟩
  | negSucc n =>
    have hlist := congrArg (· ++ rest) (Text.toList_toString_negSucc n)
    refine ⟨'-', (toString (n + 1)).toList ++ rest, hlist, .inr rfl, ?_⟩
    rw [readInt, readNat_toString_append (n + 1) hrest]
    rfl

/-! ## Parts between brackets -/

/-- A new line is a gap. -/
theorem dropWhile_newline_append (depth : Nat) (cs : List Char) :
    (newline depth ++ cs).dropWhile isGap = cs.dropWhile isGap := by
  apply List.dropWhile_append_of_pos
  intro c hc
  rcases List.mem_cons.1 hc with rfl | hc
  · rfl
  · rw [List.eq_of_mem_replicate hc]
    rfl

theorem dropWhile_isGap_cons (h : isGap c = false) (cs : List Char) : (c :: cs).dropWhile isGap = c :: cs :=
  List.dropWhile_cons_of_neg (by simp [h])

theorem ends_newline_append (depth : Nat) (cs : List Char) : Ends (newline depth ++ cs) := ends_cons rfl

/-- A gap is no digit. -/
theorem isDigit_eq_false_of_isGap (h : isGap c = true) : c.isDigit = false := by
  simp only [isGap, Bool.or_eq_true, beq_iff_eq] at h
  rcases h with ((rfl | rfl) | rfl) | rfl
  · rfl
  · rfl
  · rfl
  · rfl

section Bracketed

variable {α β : Type} {part : List Char → Option (α × List Char)} {closing : Char} {spell : β → List Char}
  {value : β → α} {xs : List β}

/-- A part in front of the closing bracket is the last one. -/
theorem readParts_last {a : α} (hgap : isGap closing = false) (outer : Nat)
    (hpart : part cs = some (a, newline outer ++ closing :: rest)) :
    readParts part closing (n + 1) cs = some ([a], rest) := by
  simp [readParts, hpart, dropWhile_newline_append, dropWhile_isGap_cons hgap]

/-- A part in front of a comma is followed by more parts. -/
theorem readParts_comma {a : α} (hcomma : closing ≠ ',') (hpart : part cs = some (a, ',' :: rest)) :
    readParts part closing (n + 1) cs =
      (readParts part closing n rest).map fun (as, rest) => (a :: as, rest) := by
  have hskip : (',' :: rest).dropWhile isGap = ',' :: rest := dropWhile_isGap_cons rfl rest
  cases h : readParts part closing n rest <;> simp [readParts, hpart, hskip, hcomma.symm, h]

/-- Without a first part there are no parts. -/
theorem readParts_of_none (hpart : part cs = none) : readParts part closing n cs = none := by
  cases n with
  | zero => rfl
  | succ n => simp [readParts, hpart]

/-- Parts on lines of their own are read up to the closing bracket, if each of them is read. -/
theorem readParts_intercalate (hgap : isGap closing = false) (hcomma : closing ≠ ',')
    (hpart : ∀ x ∈ xs, ∀ rest, Ends rest → part (newline depth ++ (spell x ++ rest)) = some (value x, rest))
    (hne : xs ≠ []) (hn : xs.length ≤ n) (outer : Nat) (rest : List Char) :
    readParts part closing n (newline depth ++ ((',' :: newline depth).intercalate (xs.map spell) ++
      (newline outer ++ closing :: rest))) = some (xs.map value, rest) := by
  induction xs generalizing n with
  | nil => contradiction
  | cons x xs ih =>
    cases n with
    | zero => cases hn
    | succ n =>
      have hx := hpart x List.mem_cons_self
      cases xs with
      | nil =>
        rw [List.map_singleton, List.intercalate_singleton]
        exact readParts_last hgap outer (hx _ (ends_newline_append outer _))
      | cons y ys =>
        have hys := ih (fun z hz => hpart z (List.mem_cons_of_mem _ hz)) (by simp) (Nat.le_of_succ_le_succ hn)
        rw [List.map_cons, List.map_cons, List.intercalate_cons_cons, List.append_assoc, List.append_assoc,
          List.cons_append, readParts_comma hcomma (hx _ (ends_cons rfl)), ← List.map_cons, hys]
        rfl

/-- What stands between brackets is read back, if its parts are, and if the closing bracket begins no part. -/
theorem readBracketed_bracketed (hgap : isGap closing = false) (hcomma : closing ≠ ',')
    (hskip : ∀ cs, part (cs.dropWhile isGap) = part cs) (hclosing : ∀ cs, part (closing :: cs) = none)
    (hpart : ∀ x ∈ xs, ∀ rest, Ends rest → part (spell x ++ rest) = some (value x, rest))
    (depth : Nat) (opening : Char) (rest : List Char) :
    ∃ cs, bracketed depth opening closing (xs.map spell) ++ rest = opening :: cs ∧
      readBracketed part closing cs = some (xs.map value, rest) := by
  cases xs with
  | nil => exact ⟨closing :: rest, rfl, by simp [readBracketed, dropWhile_isGap_cons hgap]⟩
  | cons x xs =>
    have hline : ∀ y ∈ x :: xs, ∀ rest, Ends rest →
        part (newline (depth + 1) ++ (spell y ++ rest)) = some (value y, rest) := by
      intro y hy rest hrest
      rw [← hskip, dropWhile_newline_append, hskip]
      exact hpart y hy rest hrest
    have hread := fun n hn => readParts_intercalate (n := n) hgap hcomma hline (List.cons_ne_nil _ _) hn depth rest
    refine ⟨newline (depth + 1) ++ ((',' :: newline (depth + 1)).intercalate ((x :: xs).map spell) ++
      (newline depth ++ closing :: rest)), by simp [bracketed], ?_⟩
    unfold readBracketed
    rw [if_neg ?first]
    · apply hread
      have hcount := Text.length_le_length_intercalate (',' :: newline (depth + 1)) (by simp) ((x :: xs).map spell)
      simp only [List.length_append, List.length_map, List.length_cons] at hcount ⊢
      omega
    case first =>
      intro hhead
      obtain ⟨tail, htail⟩ := List.head?_eq_some_iff.1 hhead
      have hnone := hclosing tail
      rw [← htail, hskip] at hnone
      cases (readParts_of_none hnone).symm.trans (hread _ le_rfl)

/-- What stands between brackets is longer than each of its parts. -/
theorem length_lt_length_bracketed {parts : List (List Char)} {p : List Char} (hp : p ∈ parts) (depth : Nat)
    (opening closing : Char) : p.length < (bracketed depth opening closing parts).length := by
  have hne : parts.isEmpty = false := List.isEmpty_eq_false_iff.2 (List.ne_nil_of_mem hp)
  have hlength := Text.length_le_length_intercalate_of_mem (',' :: newline (depth + 1)) hp
  simp only [bracketed, hne, Bool.false_eq_true, if_false, List.length_append, List.length_cons]
  omega

end Bracketed

/-! ## Values -/

/-- A value may have gaps in front. -/
theorem readValue_dropWhile (n : Nat) (cs : List Char) : readValue n (cs.dropWhile isGap) = readValue n cs := by
  cases n with
  | zero => rfl
  | succ n => rw [readValue, readValue, List.dropWhile_idempotent]

/-- No value begins with a closing bracket. -/
theorem readValue_closing (n : Nat) (cs : List Char) : readValue n (']' :: cs) = none := by
  cases n with
  | zero => rfl
  | succ n =>
    rw [readValue, dropWhile_isGap_cons rfl]
    simp [readInt, readNat]

/-- A field may have gaps in front. -/
theorem readField_dropWhile (part : List Char → Option (Report × List Char)) (cs : List Char) :
    readField part (cs.dropWhile isGap) = readField part cs := by
  rw [readField, readField, List.dropWhile_idempotent]

/-- A digit or a minus sign begins an integer and nothing else. -/
theorem readValue_integer (hc : c.isDigit = true ∨ c = '-') (cs : List Char) :
    readValue (n + 1) (c :: cs) = (readInt (c :: cs)).map fun (i, rest) => (int i, rest) := by
  have hne : ∀ d, d.isDigit = false → d ≠ '-' → c ≠ d := by
    rintro d hd hminus rfl
    simp_all
  have hgap : isGap c = false := by
    simp [isGap, hne ' ' rfl (by decide), hne '\t' rfl (by decide), hne '\n' rfl (by decide), hne '\r' rfl (by decide)]
  rw [readValue, dropWhile_isGap_cons hgap]
  simp [hne 'n' rfl (by decide), hne 't' rfl (by decide), hne 'f' rfl (by decide), hne '"' rfl (by decide),
    hne '[' rfl (by decide), hne '{' rfl (by decide)]

theorem quoted_append (s : String) (cs : List Char) :
    quoted s ++ cs = '"' :: (s.toList.flatMap escaped ++ '"' :: cs) := by
  simp [quoted]

/-- A field is read if its value is. -/
theorem readField_spelled {value : List Char → Option (Report × List Char)} {r r' : Report}
    (hskip : ∀ cs, value (cs.dropWhile isGap) = value cs)
    (hvalue : value (chars depth r ++ rest) = some (r', rest)) (name : String) :
    readField value (spelledField depth (name, r) ++ rest) = some ((name, r'), rest) := by
  have hspace : value (' ' :: (chars depth r ++ rest)) = value (chars depth r ++ rest) := by
    rw [← hskip, List.dropWhile_cons_of_pos rfl, hskip]
  have hcolon : ∀ cs, (':' :: cs).dropWhile isGap = ':' :: cs := dropWhile_isGap_cons rfl
  rw [spelledField, List.append_assoc, List.append_assoc, quoted_append, readField, dropWhile_isGap_cons rfl]
  simp only [readText_flatMap_escaped, Option.bind_eq_bind, Option.bind_some, List.cons_append, List.nil_append, hcolon,
    hspace, hvalue, Option.pure_def, String.ofList_toList]

/-- A printed report is read back with its fields in order, wherever no digits follow. -/
theorem readValue_chars_append (r : Report) (depth : Nat) (hn : (chars depth r).length < n) (hrest : Ends rest) :
    readValue n (chars depth r ++ rest) = some (r.sorted, rest) := by
  induction n generalizing r depth rest with
  | zero => cases hn
  | succ n ih =>
    cases r with
    | null => rfl
    | bool b => cases b <;> rfl
    | int i =>
      obtain ⟨c, cs, hcs, hc, hread⟩ := readInt_toString_append i hrest
      rw [chars, hcs, readValue_integer hc, hread, sorted]
      rfl
    | text s =>
      rw [chars, quoted_append, sorted, readValue, dropWhile_isGap_cons rfl]
      simp only [readText_flatMap_escaped, Option.map_some, String.ofList_toList]
    | list items =>
      rw [chars_list] at hn ⊢
      have hitems : ∀ r ∈ items, ∀ rest, Ends rest →
          readValue n (chars (depth + 1) r ++ rest) = some (r.sorted, rest) := by
        intro r hr rest hrest
        have hlength := length_lt_length_bracketed (List.mem_map_of_mem (f := chars (depth + 1)) hr) depth '[' ']'
        exact ih r (depth + 1) (by omega) hrest
      obtain ⟨cs, hcs, hread⟩ := readBracketed_bracketed rfl (by decide) (readValue_dropWhile n)
        (readValue_closing n) hitems depth '[' rest
      rw [hcs, readValue, dropWhile_isGap_cons rfl, sorted, sortedItems_eq_map]
      simp only [hread, Option.map_some]
    | record fields =>
      rw [chars_record] at hn ⊢
      have hfields : ∀ field ∈ fields.mergeSort fun a b => decide (a.1 ≤ b.1), ∀ rest, Ends rest →
          readField (readValue n) (spelledField (depth + 1) field ++ rest) =
            some ((field.1, field.2.sorted), rest) := by
        intro field hfield rest hrest
        have hlength :=
          length_lt_length_bracketed (List.mem_map_of_mem (f := spelledField (depth + 1)) hfield) depth '{' '}'
        have hvalue : (chars (depth + 1) field.2).length ≤ (spelledField (depth + 1) field).length := by
          rw [spelledField, List.length_append]
          omega
        exact readField_spelled (readValue_dropWhile n) (ih field.2 (depth + 1) (by omega) hrest) field.1
      have hclosing : ∀ cs, readField (readValue n) ('}' :: cs) = none := fun _ => rfl
      obtain ⟨cs, hcs, hread⟩ := readBracketed_bracketed rfl (by decide) (readField_dropWhile (readValue n)) hclosing
        hfields depth '{' rest
      rw [hcs, readValue, dropWhile_isGap_cons rfl, sorted, sortedFields_eq_map, mergeSort_map_snd]
      simp only [hread, Option.map_some]

/-- A printed report is read back with its fields in order, whatever gaps follow. -/
theorem read?_print_append (r : Report) {tail : List Char} (htail : tail.all isGap = true) :
    read? (r.print ++ String.ofList tail) = some r.sorted := by
  have hends : Ends tail := by
    intro c hc
    exact isDigit_eq_false_of_isGap (List.all_eq_true.1 htail c (List.mem_of_mem_head? hc))
  have hlength : (r.chars 0).length < (r.chars 0 ++ tail).length + 1 := by
    rw [List.length_append]
    omega
  have hread := readValue_chars_append r 0 hlength hends
  have hlist : (r.print ++ String.ofList tail).toList = r.chars 0 ++ tail := by
    simp [print]
  rw [read?, hlist, ← String.length_toList, hlist, hread]
  simp [htail]

end Sentential.Report
