import FluentSql.Proofs.Wording.Doubles
import FluentSql.Value.Display

/-!
# What a literal tells

The literal of a value tells what the value is.  Only objects of one kind look
alike, and so do NaNs.  This holds although literals stand next to each other
in lists and maps: each of them ends before a delimiter, and where it ends can
be told from its start.

There are four groups.

* Characters.  `readEscaped` reads one character of the literal of a text, and
  `literal_append_inj` and `bytesLiteral_append_inj` say that such a literal is
  told from all others.
* Delimiters.  `Identifies` says that a text tells what it was made from, also
  with more behind it.  `identifies_joinWith` passes this on from elements to a
  sequence.
* Kinds.  `Kind.ofText?` reads the kind of a value off the start of its literal.
* Values.  `Value.told` is what a literal tells, and `Value.literal_eq_iff` says
  that two literals are the same exactly if they tell the same.
-/

namespace FluentSql

open Number Text

/-! ## Escaped characters -/

namespace Text

theorem hexNumber_append_digit (cs : List Char) {d : Nat} (h : d < 16) :
    hexNumber (cs ++ [d.digitChar]) = 16 * hexNumber cs + d := by
  have hdigit : ∀ d < 16, hexDigit d.digitChar = d := by decide
  simp [hexNumber, hdigit d h]

theorem hexNumber_toDigits (n : Nat) : hexNumber (Nat.toDigits 16 n) = n := by
  induction n using Nat.strong_induction_on with
  | _ n ih =>
    rw [Nat.toDigits_eq_if (by decide)]
    split
    · next h => simpa [hexNumber] using hexNumber_append_digit [] h
    · next h =>
      rw [hexNumber_append_digit _ (Nat.mod_lt n (by decide)), ih (n / 16) (by omega)]
      omega

theorem hexNumber_hexPadded (width n : Nat) : hexNumber (hexPadded width n) = n := by
  have hzeros : ∀ k, hexNumber (List.replicate k '0') = 0 := by
    intro k
    induction k with
    | zero => rfl
    | succ k ih =>
      rw [List.replicate_succ', show '0' = Nat.digitChar 0 from rfl,
        hexNumber_append_digit _ (by decide), ← show '0' = Nat.digitChar 0 from rfl, ih]
  have hsplit : ∀ xs ys, hexNumber xs = 0 → hexNumber (xs ++ ys) = hexNumber ys := by
    intro xs ys h
    rw [hexNumber, List.foldl_append, ← hexNumber, h, hexNumber]
  rw [hexPadded, hsplit _ _ (hzeros _), hexNumber_toDigits]

theorem length_hexPadded {width n : Nat} (hwidth : 0 < width) (h : n < 16 ^ width) :
    (hexPadded width n).length = width := by
  have hlen := (Nat.length_toDigits_le_iff (by decide) hwidth).2 h
  simp only [hexPadded, List.length_append, List.length_replicate]
  omega

/-- The number of digits behind a letter that starts a hexadecimal escape. -/
def escapeWidth : Char → Nat
  | 'x' => 2
  | 'u' => 4
  | 'U' => 8
  | _ => 0

/-- Reads what stands behind a backslash, and gives the rest. -/
def readEscape : List Char → Option (Char × List Char)
  | [] => none
  | c :: rest =>
    if c = 'n' then some ('\n', rest)
    else if c = 'r' then some ('\r', rest)
    else if c = 't' then some ('\t', rest)
    else if escapeWidth c = 0 then some (c, rest)
    else some (Char.ofNat (hexNumber (rest.take (escapeWidth c))), rest.drop (escapeWidth c))

/-- Reads one character of a literal, and gives the rest. -/
def readEscaped : List Char → Option (Char × List Char)
  | [] => none
  | c :: rest => if c = '\\' then readEscape rest else some (c, rest)

theorem readEscape_hex {c : Char} (letter : Char) (hpos : 0 < escapeWidth letter)
    (h : c.toNat < 16 ^ escapeWidth letter) (rest : List Char) :
    readEscape (letter :: hexPadded (escapeWidth letter) c.toNat ++ rest) = some (c, rest) := by
  have hlen := length_hexPadded hpos h
  have hletter : ∀ other, escapeWidth other = 0 → letter ≠ other := by
    rintro _ hother rfl
    omega
  rw [List.cons_append, readEscape, if_neg (hletter 'n' rfl), if_neg (hletter 'r' rfl),
    if_neg (hletter 't' rfl), if_neg hpos.ne', List.take_left' hlen, List.drop_left' hlen,
    hexNumber_hexPadded, Char.ofNat_toNat]

/-- An escaped character is read back, whatever stands behind it. -/
theorem readEscaped_escapeChar {quote : Char} (hquote : quote = '\'' ∨ quote = '"') (c : Char)
    (rest : List Char) : readEscaped (escapeChar quote c ++ rest) = some (c, rest) := by
  unfold escapeChar
  split
  · next h =>
    rcases h with rfl | rfl
    · rcases hquote with rfl | rfl <;> rfl
    · rfl
  · next h =>
    have hslash : c ≠ '\\' := fun heq => h (.inr heq)
    split
    · next h => rw [h]; rfl
    split
    · next h => rw [h]; rfl
    split
    · next h => rw [h]; rfl
    split
    · exact if_neg hslash
    split
    · next h => exact readEscape_hex 'x' (by decide) h rest
    split
    · next h => exact readEscape_hex 'u' (by decide) h rest
    · exact readEscape_hex 'U' (by decide) ((UInt32.toNat_lt c.val).trans_le (by decide)) rest

theorem escapeChar_head {quote : Char} (hquote : quote = '\'' ∨ quote = '"') (c : Char) :
    ∃ first rest, escapeChar quote c = first :: rest ∧ first ≠ quote := by
  have hslash : '\\' ≠ quote := by rcases hquote with rfl | rfl <;> decide
  unfold escapeChar
  split
  · exact ⟨_, _, rfl, hslash⟩
  · next h =>
    repeat' split
    all_goals first | exact ⟨_, _, rfl, hslash⟩ | exact ⟨c, [], rfl, fun heq => h (.inl heq)⟩

theorem toNat_ofNat_byte (b : UInt8) : (Char.ofNat b.toNat).toNat = b.toNat := by
  have hvalid : b.toNat.isValidChar := .inl (b.toNat_lt.trans (by decide))
  rw [Char.ofNat, dif_pos hvalid]
  rfl

theorem readEscaped_escapeByte {quote : Char} (hquote : quote = '\'' ∨ quote = '"') (b : UInt8)
    (rest : List Char) :
    readEscaped (escapeByte quote b ++ rest) = some (Char.ofNat b.toNat, rest) := by
  unfold escapeByte
  split
  · exact readEscaped_escapeChar hquote _ rest
  · have hread := readEscape_hex 'x' (by decide) (show (Char.ofNat b.toNat).toNat < 256 by
      rw [toNat_ofNat_byte]
      exact b.toNat_lt) rest
    rw [toNat_ofNat_byte] at hread
    exact hread

theorem escapeByte_head {quote : Char} (hquote : quote = '\'' ∨ quote = '"') (b : UInt8) :
    ∃ first rest, escapeByte quote b = first :: rest ∧ first ≠ quote := by
  unfold escapeByte
  split
  · exact escapeChar_head hquote _
  · refine ⟨_, _, rfl, ?_⟩
    rcases hquote with rfl | rfl <;> decide

/-- Texts of which every element can be read off the front are told apart up to the closing
quote. -/
theorem flatMap_close_inj {α : Type} {word : α → List Char} {close : Char}
    (hhead : ∀ a, ∃ first rest, word a = first :: rest ∧ first ≠ close)
    (hword : ∀ a b rest rest', word a ++ rest = word b ++ rest' → a = b ∧ rest = rest')
    {xs ys : List α} {rest rest' : List Char}
    (h : xs.flatMap word ++ close :: rest = ys.flatMap word ++ close :: rest') :
    xs = ys ∧ rest = rest' := by
  have hstop : ∀ a (cs ds : List Char), word a ++ cs ≠ close :: ds := by
    intro a cs ds heq
    obtain ⟨first, tail, hfirst, hne⟩ := hhead a
    rw [hfirst] at heq
    exact hne (List.head_eq_of_cons_eq heq)
  induction xs generalizing ys with
  | nil =>
    cases ys with
    | nil => exact ⟨rfl, List.tail_eq_of_cons_eq h⟩
    | cons y ys =>
      rw [List.flatMap_cons, List.append_assoc] at h
      exact absurd h.symm (hstop y _ _)
  | cons x xs ih =>
    rw [List.flatMap_cons, List.append_assoc] at h
    cases ys with
    | nil => exact absurd h (hstop x _ _)
    | cons y ys =>
      rw [List.flatMap_cons, List.append_assoc] at h
      obtain ⟨rfl, htail⟩ := hword x y _ _ h
      obtain ⟨rfl, hrest⟩ := ih htail
      exact ⟨rfl, hrest⟩

theorem literalQuote_cases (cs : List Char) : literalQuote cs = '\'' ∨ literalQuote cs = '"' := by
  unfold literalQuote
  split
  · exact .inr rfl
  · exact .inl rfl

/-- The literal of a text is told from all others by what it starts with. -/
theorem literal_append_inj {s t : String} {rest rest' : List Char}
    (h : (literal s).toList ++ rest = (literal t).toList ++ rest') : s = t ∧ rest = rest' := by
  have hquote := literalQuote_cases s.toList
  simp only [literal, String.toList_ofList, List.cons_append, List.append_assoc,
    List.cons.injEq, List.nil_append] at h
  obtain ⟨hsame, h⟩ := h
  rw [← hsame] at h
  obtain ⟨hchars, hrest⟩ := flatMap_close_inj (escapeChar_head hquote) (fun a b rest rest' heq => by
    have hread := congrArg readEscaped heq
    rw [readEscaped_escapeChar hquote, readEscaped_escapeChar hquote] at hread
    simpa using hread) h
  exact ⟨String.toList_inj.1 hchars, hrest⟩

theorem bytesLiteral_append_inj {bs cs : List UInt8} {rest rest' : List Char}
    (h : (bytesLiteral bs).toList ++ rest = (bytesLiteral cs).toList ++ rest') :
    bs = cs ∧ rest = rest' := by
  have hquote := literalQuote_cases (bs.map fun b => Char.ofNat b.toNat)
  simp only [bytesLiteral, String.toList_ofList, List.cons_append, List.append_assoc,
    List.cons.injEq, List.nil_append, true_and] at h
  obtain ⟨hsame, h⟩ := h
  rw [← hsame] at h
  refine flatMap_close_inj (escapeByte_head hquote) (fun a b rest rest' heq => ?_) h
  have hread := congrArg readEscaped heq
  rw [readEscaped_escapeByte hquote, readEscaped_escapeByte hquote, Option.some.injEq,
    Prod.mk.injEq] at hread
  have hbyte := congrArg Char.toNat hread.1
  rw [toNat_ofNat_byte, toNat_ofNat_byte] at hbyte
  exact ⟨UInt8.toNat_inj.1 hbyte, hread.2⟩

end Text

/-! ## Texts between delimiters -/

/-- Whether a character may stand behind the literal of a value. -/
def isDelimiter (c : Char) : Bool := [',', ')', ']', '\x7d', ':'].contains c

/-- A text that may stand behind the literal of a value. -/
def EndsWord (rest : List Char) : Prop := ∀ c ∈ rest.head?, isDelimiter c = true

theorem endsWord_cons {c : Char} (h : isDelimiter c = true) (rest : List Char) :
    EndsWord (c :: rest) := by
  intro d hd
  obtain rfl : c = d := Option.some.inj hd
  exact h

theorem endsWord_nil : EndsWord [] := by
  intro c hc
  cases hc

/-- A word without delimiters ends where a delimiter stands. -/
theorem word_append_inj {xs ys rest rest' : List Char} (hx : ∀ c ∈ xs, isDelimiter c = false)
    (hy : ∀ c ∈ ys, isDelimiter c = false) (hrest : EndsWord rest) (hrest' : EndsWord rest')
    (h : xs ++ rest = ys ++ rest') : xs = ys ∧ rest = rest' := by
  induction xs generalizing ys with
  | nil =>
    cases ys with
    | nil => exact ⟨rfl, h⟩
    | cons y ys =>
      have hstop := hrest y (by rw [← List.nil_append rest, h]; rfl)
      rw [hy y List.mem_cons_self] at hstop
      cases hstop
  | cons x xs ih =>
    cases ys with
    | nil =>
      have hstop := hrest' x (by rw [← List.nil_append rest', ← h]; rfl)
      rw [hx x List.mem_cons_self] at hstop
      cases hstop
    | cons y ys =>
      rw [List.cons_append, List.cons_append, List.cons.injEq] at h
      obtain ⟨rfl, h⟩ := h
      obtain ⟨rfl, hend⟩ := ih (fun c hc => hx c (List.mem_cons_of_mem _ hc))
        (fun c hc => hy c (List.mem_cons_of_mem _ hc)) h
      exact ⟨rfl, hend⟩

section

variable {α β : Type} {word : α → String} {told : α → β}

/-- The text of an object tells what the object is, also with a text behind it. -/
def Identifies (word : α → String) (told : α → β) (a : α) : Prop :=
  ∀ b rest rest', EndsWord rest → EndsWord rest' →
    (word a).toList ++ rest = (word b).toList ++ rest' → told a = told b ∧ rest = rest'

/-- No text starts with a delimiter. -/
def BeginsWord (word : α → String) : Prop :=
  ∀ a, ∃ c rest, (word a).toList = c :: rest ∧ isDelimiter c = false

theorem toList_joinWith_cons (s : String) (ss : List String) :
    (joinWith ", " (s :: ss)).toList = s.toList ++ ss.flatMap fun t => ',' :: ' ' :: t.toList := by
  induction ss generalizing s with
  | nil => simp [joinWith]
  | cons t ss ih => simp [joinWith, ih]

theorem identifies_tail {close : Char} (hclose : isDelimiter close = true) (hcomma : close ≠ ',')
    {xs ys : List α} {rest rest' : List Char} (hxs : ∀ x ∈ xs, Identifies word told x)
    (h : (xs.map word).flatMap (fun t => ',' :: ' ' :: t.toList) ++ close :: rest =
      (ys.map word).flatMap (fun t => ',' :: ' ' :: t.toList) ++ close :: rest') :
    xs.map told = ys.map told ∧ rest = rest' := by
  have hends : ∀ (zs : List α) rest,
      EndsWord ((zs.map word).flatMap (fun t => ',' :: ' ' :: t.toList) ++ close :: rest) := by
    intro zs rest
    cases zs with
    | nil => exact endsWord_cons hclose rest
    | cons z zs => exact endsWord_cons rfl _
  induction xs generalizing ys with
  | nil =>
    cases ys with
    | nil => exact ⟨rfl, List.tail_eq_of_cons_eq h⟩
    | cons y ys => exact absurd (List.head_eq_of_cons_eq h) hcomma
  | cons x xs ih =>
    cases ys with
    | nil => exact absurd (List.head_eq_of_cons_eq h).symm hcomma
    | cons y ys =>
      simp only [List.map_cons, List.flatMap_cons, List.cons_append, List.append_assoc,
        List.cons.injEq, true_and] at h ⊢
      obtain ⟨hx, hrest⟩ := List.forall_mem_cons.1 hxs
      obtain ⟨hsame, htail⟩ := hx y _ _ (hends xs rest) (hends ys rest') h
      obtain ⟨hall, hend⟩ := ih hrest htail
      exact ⟨⟨hsame, hall⟩, hend⟩

/-- A sequence of texts with commas between them and a closing delimiter tells what it is made
of. -/
theorem identifies_joinWith (hbegins : BeginsWord word) {close : Char}
    (hclose : isDelimiter close = true) (hcomma : close ≠ ',') {xs ys : List α}
    {rest rest' : List Char} (hxs : ∀ x ∈ xs, Identifies word told x)
    (h : (joinWith ", " (xs.map word)).toList ++ close :: rest =
      (joinWith ", " (ys.map word)).toList ++ close :: rest') :
    xs.map told = ys.map told ∧ rest = rest' := by
  have hsome : ∀ (z : α) (zs : List α) rest rest', close :: rest ≠
      (joinWith ", " ((z :: zs).map word)).toList ++ close :: rest' := by
    intro z zs rest rest' heq
    obtain ⟨c, tail, hword, hc⟩ := hbegins z
    rw [List.map_cons, toList_joinWith_cons, hword] at heq
    rw [← List.head_eq_of_cons_eq heq, hclose] at hc
    cases hc
  cases xs with
  | nil =>
    cases ys with
    | nil => exact ⟨rfl, List.tail_eq_of_cons_eq h⟩
    | cons y ys => exact absurd h (hsome y ys _ _)
  | cons x xs =>
    cases ys with
    | nil => exact absurd h.symm (hsome x xs _ _)
    | cons y ys =>
      rw [List.map_cons, List.map_cons, toList_joinWith_cons, toList_joinWith_cons,
        List.append_assoc, List.append_assoc] at h
      have htail : ((x :: xs).map word).flatMap (fun t => ',' :: ' ' :: t.toList) ++ close :: rest =
          ((y :: ys).map word).flatMap (fun t => ',' :: ' ' :: t.toList) ++ close :: rest' := by
        simpa using h
      exact identifies_tail hclose hcomma hxs htail

end

/-! ## What a literal tells -/

/-- An object of the same kind as another, which its text does not tell from it. -/
def Handle.told : Handle → Handle
  | query _ => .query ⟨0⟩
  | grammar _ => .grammar ⟨0⟩
  | connection _ => .connection ⟨0⟩
  | resolver _ => .resolver ⟨0⟩
  | extensions => .extensions
  | callback _ => .callback ⟨0⟩
  | settings _ => .settings ⟨0⟩
  | bindings _ => .bindings ⟨0⟩

namespace Value

mutual

/-- What the literal of a value tells of it: objects of one kind look alike, and so do NaNs. -/
def told : Value → Value
  | double x => double (if x.isNaN then .nan 0 else x)
  | list items => list (toldAll items)
  | tuple items => tuple (toldAll items)
  | map entries => map (toldEntries entries)
  | raw v => raw (told v)
  | object handle => object handle.told
  | v => v

/-- What the literals of the elements of a list tell. -/
def toldAll : List Value → List Value
  | [] => []
  | v :: rest => told v :: toldAll rest

/-- What the literals of the entries of a map tell. -/
def toldEntries : List (Value × Value) → List (Value × Value)
  | [] => []
  | (k, v) :: rest => (told k, told v) :: toldEntries rest

end

/-- The literal of an entry of a map. -/
def entryLiteral (e : Value × Value) : String := e.1.literal ++ ": " ++ e.2.literal

theorem toldAll_eq_map (items : List Value) : toldAll items = items.map told := by
  induction items with
  | nil => rfl
  | cons v rest ih => simp [toldAll, ih]

theorem toldEntries_eq_map (entries : List (Value × Value)) :
    toldEntries entries = entries.map fun e => (e.1.told, e.2.told) := by
  induction entries with
  | nil => rfl
  | cons e rest ih => simp [toldEntries, ih]

theorem literals_eq_map (items : List Value) : literals items = items.map literal := by
  induction items with
  | nil => rfl
  | cons v rest ih => simp [literals, ih]

theorem entryLiterals_eq_map (entries : List (Value × Value)) :
    entryLiterals entries = entries.map entryLiteral := by
  induction entries with
  | nil => rfl
  | cons e rest ih => simp [entryLiterals, entryLiteral, ih]

/-! ### Induction over the values that a value holds -/

/-- Whether a value holds no other values. -/
def isScalar : Value → Bool
  | list _ | tuple _ | map _ | raw _ => false
  | _ => true

/-- What passes from the parts of a value to the value holds of all values. -/
@[elab_as_elim]
theorem inductionOnParts {motive : Value → Prop}
    (scalar : ∀ v : Value, v.isScalar = true → motive v)
    (list : ∀ items, (∀ v ∈ items, motive v) → motive (.list items))
    (tuple : ∀ items, (∀ v ∈ items, motive v) → motive (.tuple items))
    (map : ∀ entries, (∀ e ∈ entries, motive e.1 ∧ motive e.2) → motive (.map entries))
    (raw : ∀ v, motive v → motive (.raw v)) (v : Value) : motive v :=
  @Value.rec motive (fun items => ∀ v ∈ items, motive v)
    (fun entries => ∀ e ∈ entries, motive e.1 ∧ motive e.2) (fun e => motive e.1 ∧ motive e.2)
    (scalar _ rfl) (fun _ => scalar _ rfl) (fun _ => scalar _ rfl) (fun _ => scalar _ rfl)
    (fun _ => scalar _ rfl) (fun _ => scalar _ rfl) (fun _ => scalar _ rfl)
    (fun _ => scalar _ rfl) (fun _ => scalar _ rfl) list tuple map raw (fun _ => scalar _ rfl)
    (List.forall_mem_nil _) (fun _ _ hfirst hrest => List.forall_mem_cons.2 ⟨hfirst, hrest⟩)
    (List.forall_mem_nil _) (fun _ _ hfirst hrest => List.forall_mem_cons.2 ⟨hfirst, hrest⟩)
    (fun _ _ hkey hvalue => ⟨hkey, hvalue⟩) v

/-! ### The kind of a value -/

/-- A kind of values whose literals start alike. -/
inductive Kind where
  | null
  | bool
  | number
  | text
  | bytes
  | moment
  | list
  | tuple
  | map
  | raw
  | object
deriving DecidableEq

/-- The kind of a value. -/
def kind : Value → Kind
  | null => .null
  | bool _ => .bool
  | int _ | double _ => .number
  | text _ => .text
  | bytes _ => .bytes
  | date _ | dateTime _ | time _ => .moment
  | list _ => .list
  | tuple _ => .tuple
  | map _ => .map
  | raw _ => .raw
  | object _ => .object

/-- The kind of the value with a literal that starts with a character. -/
def Kind.ofInitial? (c : Char) : Option Kind :=
  if c.isDigit then some .number
  else [('N', Kind.null), ('T', .bool), ('F', .bool), ('-', .number), ('i', .number),
    ('n', .number), ('\'', .text), ('"', .text), ('b', .bytes), ('d', .moment), ('[', .list),
    ('(', .tuple), ('\x7b', .map), ('E', .raw), ('<', .object)].lookup c

/-- The kind of the value whose literal a text starts with.  The bindings of a query look like a
map with points in it. -/
def Kind.ofText? : List Char → Option Kind
  | [] => none
  | [c] => ofInitial? c
  | c :: d :: _ => if c = '\x7b' ∧ d = '.' then some .object else ofInitial? c

theorem Kind.ofInitial?_of_isDigit {c : Char} (h : c.isDigit = true) :
    ofInitial? c = some .number := if_pos h

theorem Kind.ofInitial?_of_isDelimiter {c : Char} (h : isDelimiter c = true) :
    ofInitial? c = none := by
  have hnone : ∀ c ∈ [',', ')', ']', '\x7d', ':'], ofInitial? c = none := by
    simp only [List.forall_mem_cons, List.not_mem_nil, false_implies, implies_true, and_true]
    exact ⟨rfl, rfl, rfl, rfl, rfl⟩
  exact hnone c (List.contains_iff_mem.1 h)

/-- A text starts like the literals of a kind, or like the bindings of a query. -/
def StartsAs (k : Kind) (s : String) : Prop :=
  ∃ c rest, s.toList = c :: rest ∧ (Kind.ofInitial? c = some k ∨ c = '\x7b' ∧ k = .object)

theorem StartsAs.append {k : Kind} {s : String} (h : StartsAs k s) (t : String) :
    StartsAs k (s ++ t) := by
  obtain ⟨c, rest, hs, hc⟩ := h
  exact ⟨c, rest ++ t.toList, by rw [String.toList_append, hs, List.cons_append], hc⟩

theorem startsAs_intText (i : Int) : StartsAs .number (intText i) := by
  obtain ⟨digits, hsome, hdigits, heq | heq⟩ := intText_isSigned i
  · obtain ⟨c, rest, rfl⟩ := List.exists_cons_of_ne_nil hsome
    exact ⟨c, rest, heq, .inl (Kind.ofInitial?_of_isDigit (hdigits c List.mem_cons_self))⟩
  · exact ⟨'-', digits, heq, .inl rfl⟩

theorem startsAs_double (x : Double) : StartsAs .number (DoubleStyle.plain.text x) := by
  have hsigned : ∀ body c rest, (DoubleStyle.plain.text x).toList = x.signText ++ body →
      body = c :: rest → Kind.ofInitial? c = some .number →
      StartsAs .number (DoubleStyle.plain.text x) := by
    intro body c rest htext hbody hc
    unfold StartsAs
    rw [htext]
    unfold Double.signText
    split
    · exact ⟨'-', body, rfl, .inl rfl⟩
    · exact ⟨c, rest, hbody, .inl hc⟩
  cases hnan : x.isNaN with
  | true =>
    rw [DoubleStyle.text, hnan, if_pos rfl]
    exact ⟨'n', _, rfl, .inl rfl⟩
  | false =>
    cases hinfinite : x.isInfinite with
    | true => exact hsigned _ _ _ (Double.text_infinite _ hinfinite) rfl rfl
    | false =>
      obtain ⟨body, q, htext, hspells, _⟩ := Double.text_finite .plain hnan hinfinite
      obtain ⟨c, rest, hbody, hc⟩ := hspells.begins
      exact hsigned body c rest htext hbody (Kind.ofInitial?_of_isDigit hc)

theorem startsAs_literal (v : Value) : StartsAs v.kind v.literal := by
  have hquote : ∀ cs, Kind.ofInitial? (literalQuote cs) = some .text := by
    intro cs
    rcases literalQuote_cases cs with h | h <;> rw [h] <;> rfl
  cases v with
  | null => exact ⟨'N', _, rfl, .inl rfl⟩
  | bool b =>
    cases b
    · exact ⟨'F', _, rfl, .inl rfl⟩
    · exact ⟨'T', _, rfl, .inl rfl⟩
  | int i => exact startsAs_intText i
  | double x => exact startsAs_double x
  | text s => exact ⟨_, _, String.toList_ofList, .inl (hquote _)⟩
  | bytes bs => exact ⟨'b', _, String.toList_ofList, .inl rfl⟩
  | date d => exact .append (.append (.append ⟨'d', _, rfl, .inl rfl⟩ _) _) _
  | dateTime d => exact .append (.append (.append ⟨'d', _, rfl, .inl rfl⟩ _) _) _
  | time t => exact .append (.append (.append ⟨'d', _, rfl, .inl rfl⟩ _) _) _
  | list items => exact .append (.append ⟨'[', _, rfl, .inl rfl⟩ _) _
  | tuple items =>
    unfold literal
    split <;> exact .append (.append ⟨'(', _, rfl, .inl rfl⟩ _) _
  | map entries => exact .append (.append ⟨'\x7b', _, rfl, .inl rfl⟩ _) _
  | raw v => exact .append (.append ⟨'E', _, rfl, .inl rfl⟩ _) _
  | object handle =>
    show StartsAs .object handle.display
    unfold Handle.display
    split
    · exact ⟨'<', _, rfl, .inl rfl⟩
    · exact ⟨'<', _, rfl, .inl rfl⟩
    · exact ⟨'<', _, rfl, .inl rfl⟩
    · exact ⟨'<', _, rfl, .inl rfl⟩
    · exact ⟨'<', _, rfl, .inl rfl⟩
    · exact ⟨'<', _, rfl, .inl rfl⟩
    · exact ⟨'<', _, rfl, .inl rfl⟩
    · exact ⟨'\x7b', _, rfl, .inr ⟨rfl, rfl⟩⟩

/-- No literal starts with a delimiter. -/
theorem literal_begins : BeginsWord literal := by
  intro v
  obtain ⟨c, rest, heq, hc⟩ := startsAs_literal v
  refine ⟨c, rest, heq, Bool.eq_false_iff.2 fun hdelimiter => ?_⟩
  rcases hc with hc | ⟨rfl, _⟩
  · rw [Kind.ofInitial?_of_isDelimiter hdelimiter] at hc
    cases hc
  · cases hdelimiter

theorem literal_kind (v : Value) (rest : List Char) :
    Kind.ofText? (v.literal.toList ++ rest) = some v.kind := by
  have hplain : ∀ {c : Char} {cs : List Char}, c ≠ '\x7b' →
      Kind.ofText? (c :: cs) = Kind.ofInitial? c := by
    intro c cs hc
    cases cs with
    | nil => rfl
    | cons d cs => exact if_neg fun h => hc h.1
  have hother : ∀ {k : Kind}, k ≠ .map → k ≠ .object → StartsAs k v.literal →
      Kind.ofText? (v.literal.toList ++ rest) = some k := by
    intro k hmap hobject hstarts
    obtain ⟨c, cs, heq, hc | ⟨_, hk⟩⟩ := hstarts
    · rw [heq, List.cons_append, hplain, hc]
      rintro rfl
      exact hmap (Option.some.inj hc).symm
    · exact absurd hk hobject
  cases v with
  | map entries =>
    -- Behind the brace there is another brace or the literal of a key, and no point.
    have hsecond : ∃ d cs,
        (joinWith ", " (entryLiterals entries)).toList ++ '\x7d' :: rest = d :: cs ∧ d ≠ '.' := by
      cases entries with
      | nil => exact ⟨_, _, rfl, by decide⟩
      | cons e es =>
        obtain ⟨d, cs, heq, hd⟩ := startsAs_literal e.1
        rw [entryLiterals_eq_map, List.map_cons, toList_joinWith_cons, entryLiteral]
        refine ⟨d, _, by simp only [String.toList_append, heq, List.cons_append]; rfl, ?_⟩
        rintro rfl
        rcases hd with hd | ⟨hd, _⟩ <;> cases hd
    obtain ⟨d, cs, heq, hd⟩ := hsecond
    have htext : (map entries).literal.toList ++ rest = '\x7b' :: d :: cs := by
      rw [← heq]
      simp [literal]
    rw [htext]
    exact if_neg fun h => hd h.2
  | object handle =>
    show Kind.ofText? (handle.display.toList ++ rest) = _
    unfold Handle.display
    split <;> rfl
  | _ => exact hother (by simp [kind]) (by simp [kind]) (startsAs_literal _)

theorem kind_eq_of_literal {v w : Value} {rest rest' : List Char}
    (h : v.literal.toList ++ rest = w.literal.toList ++ rest') : v.kind = w.kind := by
  have hkinds := congrArg Kind.ofText? h
  rw [literal_kind, literal_kind] at hkinds
  exact Option.some.inj hkinds

/-! ### Scalars -/

theorem intText_word (i : Int) : ∀ c ∈ (intText i).toList, c.isDigit = true ∨ c = '-' := by
  intro c hc
  obtain ⟨digits, _, hdigits, heq | heq⟩ := intText_isSigned i <;> rw [heq] at hc
  · exact .inl (hdigits c hc)
  · rcases List.mem_cons.1 hc with rfl | hc
    · exact .inr rfl
    · exact .inl (hdigits c hc)

theorem isDelimiter_of_isDigit {c : Char} (h : c.isDigit = true) : isDelimiter c = false := by
  refine Bool.eq_false_iff.2 fun hdelimiter => ?_
  have hdigit := Kind.ofInitial?_of_isDigit h
  rw [Kind.ofInitial?_of_isDelimiter hdelimiter] at hdigit
  cases hdigit

theorem identifies_natText (n : Nat) : Identifies natText id n := by
  intro m rest rest' hrest hrest' h
  have hword : ∀ n, ∀ c ∈ (natText n).toList, isDelimiter c = false := by
    intro n c hc
    rw [toList_natText] at hc
    exact isDelimiter_of_isDigit (natDigits_isDigit hc)
  obtain ⟨hsame, hend⟩ := word_append_inj (hword n) (hword m) hrest hrest' h
  exact ⟨natText_injective (String.toList_inj.1 hsame), hend⟩

theorem natText_begins : BeginsWord natText := by
  intro n
  have hsome : (natText n).toList ≠ [] := by
    rw [toList_natText]
    exact Nat.toDigits_ne_nil
  obtain ⟨c, rest, heq⟩ := List.exists_cons_of_ne_nil hsome
  refine ⟨c, rest, heq, isDelimiter_of_isDigit (natDigits_isDigit (n := n) ?_)⟩
  rw [← toList_natText, heq]
  exact List.mem_cons_self

theorem fieldsLiteral_append_inj {name : String} {fields fields' : List Nat}
    {rest rest' : List Char} (h : (fieldsLiteral name fields).toList ++ rest =
      (fieldsLiteral name fields').toList ++ rest') : fields = fields' ∧ rest = rest' := by
  simp only [fieldsLiteral, String.toList_append, List.append_assoc] at h
  have hfields := List.append_cancel_left (List.append_cancel_left h)
  have htold := identifies_joinWith natText_begins (show isDelimiter ')' = true from rfl)
    (by decide) (fun n _ => identifies_natText n) hfields
  rwa [List.map_id, List.map_id] at htold

theorem number_word {v : Value} (hv : v.kind = .number) :
    ∀ c ∈ v.literal.toList, isDelimiter c = false := by
  have hplain : ∀ cs : List Char, (∀ c ∈ cs, c.isDigit = true ∨
      c ∈ ['.', 'e', '+', '-', 'i', 'n', 'f', 'a']) → ∀ c ∈ cs, isDelimiter c = false := by
    intro cs hcs c hc
    rcases hcs c hc with hdigit | hother
    · exact isDelimiter_of_isDigit hdigit
    · have hnone : ∀ c ∈ ['.', 'e', '+', '-', 'i', 'n', 'f', 'a'], isDelimiter c = false := by
        simp [isDelimiter]
      exact hnone c hother
  cases v with
  | int i =>
    refine hplain _ fun c hc => ?_
    rcases intText_word i c hc with hdigit | rfl
    · exact .inl hdigit
    · exact .inr (by decide)
  | double x =>
    refine hplain _ fun c hc => ?_
    rcases Double.text_word x c hc with hdigit | hother
    · exact .inl hdigit
    · exact .inr hother
  | _ => cases hv

theorem number_told {v w : Value} (hv : v.kind = .number) (hw : w.kind = .number)
    (h : v.literal = w.literal) : v.told = w.told := by
  have hmixed : ∀ (i : Int) (x : Double), intText i ≠ DoubleStyle.plain.text x := by
    intro i x heq
    obtain ⟨c, hc, hdigit, hminus⟩ := Double.text_marked x
    rw [← heq] at hc
    rcases intText_word i c hc with hc | hc
    · rw [hdigit] at hc
      cases hc
    · exact hminus hc
  cases v with
  | int i =>
    cases w with
    | int j => rw [intText_injective h]
    | double y => exact absurd h (hmixed i y)
    | _ => cases hw
  | double x =>
    cases w with
    | int j => exact absurd h.symm (hmixed j x)
    | double y =>
      have hnan : x.isNaN = y.isNaN := by
        have htext : DoubleStyle.plain.text x = DoubleStyle.plain.text y := h
        rw [Bool.eq_iff_iff, ← Double.text_eq_nan_iff, ← Double.text_eq_nan_iff, htext]
      cases hx : x.isNaN with
      | true => simp [told, hx, hnan.symm.trans hx]
      | false => rw [Double.text_injective hx (hnan.symm.trans hx) h]
    | _ => cases hw
  | _ => cases hv

theorem Date.fields_inj {d e : Date} (h : d.fields = e.fields) : d = e := by
  cases d
  cases e
  simpa [Date.fields] using h

theorem TimeOfDay.fields_inj {t u : TimeOfDay} (h : t.fields = u.fields) : t = u := by
  cases t
  cases u
  unfold TimeOfDay.fields at h
  split at h <;> split at h <;> simp_all

/-- The names of dates and times are told apart before their fields are read. -/
theorem moment_append_inj {v w : Value} (hv : v.kind = .moment) (hw : w.kind = .moment)
    {rest rest' : List Char} (h : v.literal.toList ++ rest = w.literal.toList ++ rest') :
    v.told = w.told ∧ rest = rest' := by
  cases v with
  | date d =>
    cases w with
    | date e =>
      obtain ⟨hfields, hend⟩ := fieldsLiteral_append_inj h
      exact ⟨congrArg date (Date.fields_inj hfields), hend⟩
    | dateTime _ | time _ => simp [literal, fieldsLiteral] at h
    | _ => cases hw
  | dateTime d =>
    cases w with
    | dateTime e =>
      obtain ⟨hfields, hend⟩ := fieldsLiteral_append_inj h
      obtain ⟨hdate, htime⟩ := List.append_inj hfields rfl
      cases d
      cases e
      obtain rfl := Date.fields_inj hdate
      obtain rfl := TimeOfDay.fields_inj htime
      exact ⟨rfl, hend⟩
    | date _ | time _ => simp [literal, fieldsLiteral] at h
    | _ => cases hw
  | time t =>
    cases w with
    | time u =>
      obtain ⟨hfields, hend⟩ := fieldsLiteral_append_inj h
      exact ⟨congrArg time (TimeOfDay.fields_inj hfields), hend⟩
    | date _ | dateTime _ => simp [literal, fieldsLiteral] at h
    | _ => cases hw
  | _ => cases hv

theorem display_append_inj {handle handle' : Handle} {rest rest' : List Char}
    (h : handle.display.toList ++ rest = handle'.display.toList ++ rest') :
    handle.told = handle'.told ∧ rest = rest' := by
  cases handle <;> cases handle' <;> simp [Handle.display] at h <;> exact ⟨rfl, h⟩

/-- Every scalar is told by its literal. -/
theorem identifies_scalar {v : Value} (hv : v.isScalar = true) : Identifies literal told v := by
  intro w rest rest' hrest hrest' h
  have hkind := kind_eq_of_literal h
  cases v with
  | null =>
    cases w with
    | null => exact ⟨rfl, List.append_cancel_left h⟩
    | _ => cases hkind
  | bool b =>
    cases w with
    | bool c =>
      cases b <;> cases c <;> simp [literal, boolLiteral] at h <;> exact ⟨rfl, h⟩
    | _ => cases hkind
  | int _ | double _ =>
    obtain ⟨hsame, hend⟩ := word_append_inj (number_word rfl) (number_word hkind.symm) hrest
      hrest' h
    exact ⟨number_told rfl hkind.symm (String.toList_inj.1 hsame), hend⟩
  | text s =>
    cases w with
    | text t =>
      obtain ⟨rfl, hend⟩ := literal_append_inj h
      exact ⟨rfl, hend⟩
    | _ => cases hkind
  | bytes bs =>
    cases w with
    | bytes cs =>
      obtain ⟨rfl, hend⟩ := bytesLiteral_append_inj h
      exact ⟨rfl, hend⟩
    | _ => cases hkind
  | date _ | dateTime _ | time _ => exact moment_append_inj rfl hkind.symm h
  | object handle =>
    cases w with
    | object handle' =>
      obtain ⟨htold, hend⟩ := display_append_inj h
      exact ⟨congrArg object htold, hend⟩
    | _ => cases hkind
  | list _ | tuple _ | map _ | raw _ => cases hv

/-! ### All values -/

theorem entryLiteral_begins : BeginsWord entryLiteral := by
  intro e
  obtain ⟨c, rest, heq, hc⟩ := literal_begins e.1
  exact ⟨c, _, by rw [entryLiteral, String.toList_append, String.toList_append, heq]; rfl, hc⟩

theorem identifies_entry {e : Value × Value} (hkey : Identifies literal told e.1)
    (hvalue : Identifies literal told e.2) :
    Identifies entryLiteral (fun e => (e.1.told, e.2.told)) e := by
  intro f rest rest' hrest hrest' h
  simp only [entryLiteral, String.toList_append, List.append_assoc] at h
  obtain ⟨hk, htail⟩ := hkey f.1 _ _ (endsWord_cons rfl _) (endsWord_cons rfl _) h
  have htail : ": ".toList ++ (e.2.literal.toList ++ rest) =
      ": ".toList ++ (f.2.literal.toList ++ rest') := htail
  obtain ⟨hv, hend⟩ := hvalue f.2 _ _ hrest hrest' (List.append_cancel_left htail)
  exact ⟨congrArg₂ Prod.mk hk hv, hend⟩

/-- What stands behind the first element of a tuple.  There is a comma even if it is alone. -/
def tupleTail : List Value → List Char
  | [] => [',', ')']
  | items => (items.map literal).flatMap (fun t => ',' :: ' ' :: t.toList) ++ [')']

theorem tupleTail_congr {us vs : List Value} (h : us.map literal = vs.map literal) :
    tupleTail us = tupleTail vs := by
  cases us with
  | nil =>
    cases vs with
    | nil => rfl
    | cons v vs => cases h
  | cons u us =>
    cases vs with
    | nil => cases h
    | cons v vs =>
      show ((u :: us).map literal).flatMap _ ++ _ = ((v :: vs).map literal).flatMap _ ++ _
      rw [h]

theorem toList_tuple_cons (v : Value) (vs : List Value) :
    (tuple (v :: vs)).literal.toList = '(' :: v.literal.toList ++ tupleTail vs := by
  cases vs with
  | nil => simp [literal, tupleTail]
  | cons w ws =>
    simp [literal, literals_eq_map, toList_joinWith_cons, joinWith, literals, tupleTail]

theorem tuple_append_inj {vs ws : List Value} {rest rest' : List Char}
    (hvs : ∀ v ∈ vs, Identifies literal told v)
    (h : (tuple vs).literal.toList ++ rest = (tuple ws).literal.toList ++ rest') :
    vs.map told = ws.map told ∧ rest = rest' := by
  have hsome : ∀ (u : Value) (us : List Value) rest rest',
      (tuple []).literal.toList ++ rest ≠ (tuple (u :: us)).literal.toList ++ rest' := by
    intro u us rest rest' heq
    obtain ⟨c, tail, hu, hc⟩ := literal_begins u
    rw [toList_tuple_cons, hu] at heq
    have hclose : ')' = c := List.head_eq_of_cons_eq (List.tail_eq_of_cons_eq heq)
    rw [← hclose] at hc
    cases hc
  have hends : ∀ us rest, EndsWord (tupleTail us ++ rest) := by
    intro us rest
    cases us <;> exact endsWord_cons rfl _
  cases vs with
  | nil =>
    cases ws with
    | nil => exact ⟨rfl, List.append_cancel_left h⟩
    | cons w ws => exact absurd h (hsome w ws _ _)
  | cons v vs =>
    cases ws with
    | nil => exact absurd h.symm (hsome v vs _ _)
    | cons w ws =>
      obtain ⟨hv, hvs⟩ := List.forall_mem_cons.1 hvs
      rw [toList_tuple_cons, toList_tuple_cons, List.cons_append, List.cons_append,
        List.append_assoc, List.append_assoc] at h
      obtain ⟨htold, htail⟩ := hv w _ _ (hends vs rest) (hends ws rest')
        (List.tail_eq_of_cons_eq h)
      rw [List.map_cons, List.map_cons, htold]
      cases vs with
      | nil =>
        cases ws with
        | nil => exact ⟨rfl, List.append_cancel_left htail⟩
        | cons w ws => cases List.head_eq_of_cons_eq (List.tail_eq_of_cons_eq htail)
      | cons v vs =>
        cases ws with
        | nil => cases List.head_eq_of_cons_eq (List.tail_eq_of_cons_eq htail)
        | cons w ws =>
          rw [tupleTail, tupleTail, List.append_assoc, List.append_assoc] at htail
          · obtain ⟨hall, hend⟩ :=
              identifies_tail (show isDelimiter ')' = true from rfl) (by decide) hvs htail
            exact ⟨by rw [hall], hend⟩
          all_goals simp

/-- The literal of a value tells what the value is, but for objects and NaNs. -/
theorem identifies_literal (v : Value) : Identifies literal told v := by
  induction v using inductionOnParts with
  | scalar v hv => exact identifies_scalar hv
  | list vs ih =>
    intro w rest rest' hrest hrest' h
    have hkind := kind_eq_of_literal h
    cases w with
    | list ws =>
      have hitems : (joinWith ", " (vs.map literal)).toList ++ ']' :: rest =
          (joinWith ", " (ws.map literal)).toList ++ ']' :: rest' := by
        simpa [literal, literals_eq_map] using h
      obtain ⟨htold, hend⟩ := identifies_joinWith literal_begins rfl (by decide) ih hitems
      refine ⟨?_, hend⟩
      rw [told, told, toldAll_eq_map, toldAll_eq_map, htold]
    | _ => cases hkind
  | tuple vs ih =>
    intro w rest rest' hrest hrest' h
    have hkind := kind_eq_of_literal h
    cases w with
    | tuple ws =>
      obtain ⟨htold, hend⟩ := tuple_append_inj ih h
      refine ⟨?_, hend⟩
      rw [told, told, toldAll_eq_map, toldAll_eq_map, htold]
    | _ => cases hkind
  | map es ih =>
    intro w rest rest' hrest hrest' h
    have hkind := kind_eq_of_literal h
    cases w with
    | map fs =>
      have hentries : (joinWith ", " (es.map entryLiteral)).toList ++ '\x7d' :: rest =
          (joinWith ", " (fs.map entryLiteral)).toList ++ '\x7d' :: rest' := by
        simpa [literal, entryLiterals_eq_map] using h
      obtain ⟨htold, hend⟩ := identifies_joinWith entryLiteral_begins rfl (by decide)
        (fun e he => identifies_entry (ih e he).1 (ih e he).2) hentries
      refine ⟨?_, hend⟩
      rw [told, told, toldEntries_eq_map, toldEntries_eq_map, htold]
    | _ => cases hkind
  | raw v ih =>
    intro w rest rest' hrest hrest' h
    have hkind := kind_eq_of_literal h
    cases w with
    | raw w =>
      have hvalue : v.literal.toList ++ ')' :: rest = w.literal.toList ++ ')' :: rest' := by
        simpa [literal] using h
      obtain ⟨htold, htail⟩ := ih w _ _ (endsWord_cons rfl _) (endsWord_cons rfl _) hvalue
      exact ⟨congrArg raw htold, List.tail_eq_of_cons_eq htail⟩
    | _ => cases hkind

theorem literal_told (v : Value) : v.told.literal = v.literal := by
  induction v using inductionOnParts with
  | scalar v hv =>
    cases v with
    | double x =>
      cases hx : x.isNaN with
      | true =>
        simp only [told, hx, if_pos, literal, Double.text_nan .plain hx]
        exact Double.text_nan .plain rfl
      | false => simp [told, hx]
    | object handle => cases handle <;> rfl
    | list _ | tuple _ | map _ | raw _ => cases hv
    | _ => rfl
  | list vs ih =>
    have hitems : (vs.map told).map literal = vs.map literal := by simpa using ih
    simp only [told, toldAll_eq_map, literal, literals_eq_map, hitems]
  | tuple vs ih =>
    have hitems : (vs.map told).map literal = vs.map literal := by simpa using ih
    rw [told, toldAll_eq_map]
    cases vs with
    | nil => rfl
    | cons v vs =>
      rw [List.map_cons, List.map_cons, List.map_cons, List.cons.injEq] at hitems
      apply String.toList_inj.1
      rw [List.map_cons, toList_tuple_cons, toList_tuple_cons, hitems.1, tupleTail_congr hitems.2]
  | map es ih =>
    have hentries :
        (es.map fun e => (e.1.told, e.2.told)).map entryLiteral = es.map entryLiteral := by
      rw [List.map_map]
      refine List.map_congr_left fun e he => ?_
      simp only [Function.comp_apply, entryLiteral, (ih e he).1, (ih e he).2]
    simp only [told, toldEntries_eq_map, literal, entryLiterals_eq_map, hentries]
  | raw v ih => simp only [told, literal, ih]

/-- Two values have the same literal exactly if it tells the same of both. -/
theorem literal_eq_iff (v w : Value) : v.literal = w.literal ↔ v.told = w.told := by
  refine ⟨fun h => ?_, fun h => ?_⟩
  · have hlist : v.literal.toList ++ [] = w.literal.toList ++ [] := by rw [h]
    exact (identifies_literal v w [] [] endsWord_nil endsWord_nil hlist).1
  · rw [← literal_told v, h, literal_told w]

end Value

end FluentSql
