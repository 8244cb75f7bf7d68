import FluentSql.Proofs.Naming.Prefixing

/-!
# Paths of JSON selectors

The path of a selector is written as one literal: the arrows between its keys
become `"."`, and single quotes are doubled.  Nothing of the keys is lost on
the way, so a reader of the literal has them back.

* `keySelector` is a column with keys, and `splitArrow?_keySelector` cuts it where
  they meet.
* `PathKeys` are the keys that can be read back.
* `unquoted` reads a literal, and `keysOfPath` reads the keys of a path.
* `replaceAll_arrow` says what becomes of the arrows.  A key may end in a dash
  or start with a bracket: an arrow is found from the left, and no key holds
  one.
* `Grammar.wrap_selector` is about a whole selector.
-/

namespace FluentSql

namespace Name

/-! ## Arrows -/

section

variable {cs rest : List Char}

/-- An arrow is found exactly if there is one. -/
theorem hasArrow_iff : hasArrow cs = true ↔ arrow <:+: cs := by
  induction cs with
  | nil => simp [hasArrow, splitArrow?, arrow]
  | cons c cs ih =>
    have hhere : arrow <+: c :: cs ↔ c = '-' ∧ cs.head? = some '>' := by
      cases cs with
      | nil => simp [arrow]
      | cons d cs => simp [arrow, List.cons_prefix_cons, eq_comm]
    rw [hasArrow_cons, Bool.or_eq_true, decide_eq_true_iff, List.infix_cons_iff, hhere, ih]

theorem hasArrow_eq_false_iff : hasArrow cs = false ↔ ¬arrow <:+: cs := by
  rw [← hasArrow_iff, Bool.not_eq_true]

/-- Behind a dash of a text without arrows there is no bracket, even if an arrow follows the
text. -/
private theorem not_arrow_of_append {c : Char} (h : hasArrow (c :: cs) = false) :
    ¬(c = '-' ∧ (cs ++ arrow ++ rest).head? = some '>') := by
  rw [hasArrow_cons, Bool.or_eq_false_iff, decide_eq_false_iff_not] at h
  cases cs with
  | nil => simp [arrow]
  | cons d cs => exact h.1

/-- A text without arrows ends where the first arrow starts. -/
theorem splitArrow?_append (h : hasArrow cs = false) (rest : List Char) :
    splitArrow? (cs ++ arrow ++ rest) = some (cs, rest) := by
  induction cs with
  | nil => rfl
  | cons c cs ih =>
    have hrest : hasArrow cs = false := by
      rw [hasArrow_cons, Bool.or_eq_false_iff] at h
      exact h.2
    rw [List.cons_append, List.cons_append, splitArrow?_cons, if_neg (not_arrow_of_append h),
      ih hrest]
    rfl

/-- Whether an arrow starts here. -/
private theorem isPrefixOf_arrow (c : Char) (cs : List Char) :
    arrow.isPrefixOf (c :: cs) = decide (c = '-' ∧ cs.head? = some '>') := by
  cases cs with
  | nil => simp [arrow, List.isPrefixOf]
  | cons d cs =>
    rw [Bool.eq_iff_iff, decide_eq_true_iff, List.head?_cons, Option.some_inj]
    simp [arrow, List.isPrefixOf, @eq_comm Char '-', @eq_comm Char '>']

/-- What is before the first arrow is kept, and the arrow is replaced. -/
theorem replaceFrom_arrow_append (new : List Char) (h : hasArrow cs = false) :
    replaceFrom arrow new 0 (cs ++ arrow ++ rest) = cs ++ new ++ replaceFrom arrow new 0 rest := by
  induction cs with
  | nil => rfl
  | cons c cs ih =>
    have hrest : hasArrow cs = false := by
      rw [hasArrow_cons, Bool.or_eq_false_iff] at h
      exact h.2
    rw [List.cons_append, List.cons_append, replaceFrom, isPrefixOf_arrow,
      decide_eq_false (not_arrow_of_append h), if_neg Bool.false_ne_true, ih hrest]
    simp

/-- Where there is no arrow nothing is replaced. -/
theorem replaceFrom_arrow_self (new : List Char) (h : hasArrow cs = false) :
    replaceFrom arrow new 0 cs = cs := by
  induction cs with
  | nil => rfl
  | cons c cs ih =>
    rw [hasArrow_cons, Bool.or_eq_false_iff] at h
    rw [replaceFrom, isPrefixOf_arrow, h.1, if_neg Bool.false_ne_true, ih h.2]

/-- Replacing the arrows between keys puts the new text between them. -/
theorem replaceAll_arrow (new : List Char) {keys : List (List Char)}
    (h : ∀ key ∈ keys, hasArrow key = false) :
    replaceAll arrow new (arrow.intercalate keys) = new.intercalate keys := by
  rw [replaceAll, if_neg (by decide)]
  induction keys with
  | nil => rfl
  | cons key keys ih =>
    obtain ⟨hkey, hkeys⟩ := List.forall_mem_cons.1 h
    cases keys with
    | nil =>
      rw [List.intercalate_singleton, List.intercalate_singleton, replaceFrom_arrow_self new hkey]
    | cons second keys =>
      rw [List.intercalate_cons_cons, List.intercalate_cons_cons, replaceFrom_arrow_append new hkey,
        ih hkeys]

end

/-! ## Doubled single quotes -/

section

variable {cs : List Char}

/-- Where no backslash stands, only the single quotes change. -/
theorem doubleQuotes_of_plain (h : '\\' ∉ cs) : doubleQuotes cs = doubleChar '\'' cs := by
  unfold doubleQuotes
  induction cs with
  | nil => rfl
  | cons c cs ih =>
    rw [List.mem_cons, not_or] at h
    rw [doubleQuotesFrom, if_neg (Ne.symm h.1), doubleChar_cons, ih h.2]
    split
    · rename_i hc
      rw [hc]
      rfl
    · rfl

theorem doubleChar_append (quote : Char) (a b : List Char) :
    doubleChar quote (a ++ b) = doubleChar quote a ++ doubleChar quote b :=
  List.flatMap_append

/-- A text without the quote stays as it is. -/
theorem doubleChar_of_not_mem {quote : Char} (h : quote ∉ cs) : doubleChar quote cs = cs := by
  induction cs with
  | nil => rfl
  | cons c cs ih =>
    rw [List.mem_cons, not_or] at h
    rw [doubleChar_cons, if_neg (Ne.symm h.1), ih h.2]
    rfl

/-- Doubling the quotes of texts with a separator between them doubles those of each text. -/
theorem doubleChar_intercalate {quote : Char} {separator : List Char} (h : quote ∉ separator)
    (texts : List (List Char)) :
    doubleChar quote (separator.intercalate texts) =
      separator.intercalate (texts.map (doubleChar quote)) := by
  induction texts with
  | nil => rfl
  | cons text texts ih =>
    cases texts with
    | nil => simp
    | cons second texts =>
      rw [List.intercalate_cons_cons, doubleChar_append, doubleChar_append, ih,
        doubleChar_of_not_mem h]
      simp

theorem head?_doubleChar (quote : Char) (cs : List Char) :
    (doubleChar quote cs).head? = cs.head? := by
  cases cs with
  | nil => rfl
  | cons c cs =>
    rw [doubleChar_cons]
    split <;> rfl

/-- Doubled single quotes make no arrow. -/
theorem hasArrow_doubleChar (h : hasArrow cs = false) : hasArrow (doubleChar '\'' cs) = false := by
  induction cs with
  | nil => rfl
  | cons c cs ih =>
    rw [hasArrow_cons, Bool.or_eq_false_iff] at h
    rw [doubleChar_cons]
    split
    · rename_i hc
      subst hc
      show hasArrow ('\'' :: '\'' :: doubleChar '\'' cs) = false
      rw [hasArrow_cons, hasArrow_cons, ih h.2]
      simp
    · show hasArrow (c :: doubleChar '\'' cs) = false
      rw [hasArrow_cons, head?_doubleChar, h.1, ih h.2]
      rfl

end

/-! ## Reading a literal -/

/-- What is left of a literal behind its first quote, with the quotes inside it undoubled.  The
literal must end where the characters do. -/
def unquotedFrom : List Char → Option (List Char)
  | [] => none
  | ['\''] => some []
  | '\'' :: '\'' :: rest => (unquotedFrom rest).map ('\'' :: ·)
  | c :: rest => if c = '\'' then none else (unquotedFrom rest).map (c :: ·)

/-- The text that a single-quoted literal stands for, if the characters are one literal. -/
def unquoted : List Char → Option (List Char)
  | '\'' :: rest => unquotedFrom rest
  | _ => none

theorem unquotedFrom_doubleChar (cs : List Char) :
    unquotedFrom (doubleChar '\'' cs ++ ['\'']) = some cs := by
  induction cs with
  | nil => rfl
  | cons c cs ih =>
    rw [doubleChar_cons]
    split
    · rename_i hc
      subst hc
      show (unquotedFrom (doubleChar '\'' cs ++ ['\''])).map _ = _
      rw [ih]
      rfl
    · rename_i hc
      show unquotedFrom (c :: (doubleChar '\'' cs ++ ['\''])) = _
      rw [unquotedFrom, if_neg hc, ih]
      · rfl
      · exact fun heq => absurd heq hc
      · exact fun _ heq _ => hc heq

/-- One key of a path, behind a point and in double quotes. -/
def pathStep (key : List Char) : List Char :=
  '.' :: '"' :: key ++ ['"']

/-- Reads keys off a path; `inside` holds the key that is being read, last character first. -/
def pathStepsFrom (inside : Option (List Char)) : List Char → Option (List (List Char))
  | [] => if inside.isNone then some [] else none
  | c :: rest =>
    match inside with
    | some key =>
      if c = '"' then (pathStepsFrom none rest).map (key.reverse :: ·)
      else pathStepsFrom (some (c :: key)) rest
    | none =>
      match c, rest with
      | '.', '"' :: rest => pathStepsFrom (some []) rest
      | _, _ => none

/-- The keys of a path that starts at the whole document. -/
def keysOfPath : List Char → Option (List (List Char))
  | '$' :: rest => pathStepsFrom none rest
  | _ => none

/-- The rest of a key is read up to its double quote. -/
theorem pathStepsFrom_inside {key : List Char} (h : '"' ∉ key) (read rest : List Char) :
    pathStepsFrom (some read) (key ++ '"' :: rest) =
      (pathStepsFrom none rest).map ((read.reverse ++ key) :: ·) := by
  induction key generalizing read with
  | nil =>
    rw [List.nil_append, List.append_nil, pathStepsFrom]
    exact if_pos rfl
  | cons c key ih =>
    rw [List.mem_cons, not_or] at h
    rw [List.cons_append, pathStepsFrom, if_neg (Ne.symm h.1), ih h.2]
    simp

/-- A path is read back key by key. -/
theorem keysOfPath_steps {keys : List (List Char)} (h : ∀ key ∈ keys, '"' ∉ key) :
    keysOfPath ('$' :: keys.flatMap pathStep) = some keys := by
  show pathStepsFrom none (keys.flatMap pathStep) = some keys
  induction keys with
  | nil => rfl
  | cons key keys ih =>
    obtain ⟨hkey, hkeys⟩ := List.forall_mem_cons.1 h
    have hstep : (key :: keys).flatMap pathStep =
        '.' :: '"' :: (key ++ '"' :: keys.flatMap pathStep) := by
      simp [pathStep]
    rw [hstep]
    show pathStepsFrom (some []) (key ++ '"' :: keys.flatMap pathStep) = _
    rw [pathStepsFrom_inside hkey, ih hkeys]
    rfl

/-! ## Literals of keys -/

/-- A column with keys behind it, an arrow before each of them. -/
def keySelector (column : List Char) (keys : List (List Char)) : List Char :=
  column ++ arrow ++ arrow.intercalate keys

/-- The literal that stands for a path of keys. -/
def keysLiteral (keys : List (List Char)) : List Char :=
  pathLiteral arrow (arrow.intercalate keys)

/-- Keys that can be told apart in a path: none holds an arrow, a double quote or a backslash. -/
structure PathKeys (keys : List (List Char)) : Prop where
  some_key : keys ≠ []
  no_arrow : ∀ key ∈ keys, ¬arrow <:+: key
  no_quote : ∀ key ∈ keys, '"' ∉ key
  no_backslash : ∀ key ∈ keys, '\\' ∉ key

section

variable {column : List Char} {keys keys' : List (List Char)}

/-- A separator between texts stands before each but the first. -/
private theorem intercalate_cons (separator first : List Char) (texts : List (List Char)) :
    separator.intercalate (first :: texts) = first ++ texts.flatMap (separator ++ ·) := by
  induction texts generalizing first with
  | nil => simp
  | cons text texts ih =>
    rw [List.intercalate_cons_cons, ih, List.flatMap_cons]
    simp

/-- The path of keys, from the marks around the first key to those around the last. -/
private theorem steps_eq (h : keys ≠ []) :
    ['.', '"'] ++ ['"', '.', '"'].intercalate keys ++ ['"'] = keys.flatMap pathStep := by
  cases keys with
  | nil => exact absurd rfl h
  | cons key keys =>
    clear h
    rw [intercalate_cons]
    induction keys generalizing key with
    | nil => simp [pathStep]
    | cons second keys ih =>
      have hsteps : (key :: second :: keys).flatMap pathStep =
          pathStep key ++ (second :: keys).flatMap pathStep := List.flatMap_cons
      rw [hsteps, ← ih second]
      simp [pathStep]

theorem not_mem_intercalate {c : Char} {separator : List Char} (h : c ∉ separator)
    (hkeys : ∀ key ∈ keys, c ∉ key) : c ∉ separator.intercalate keys := by
  cases keys with
  | nil => exact List.not_mem_nil
  | cons key keys =>
    obtain ⟨hkey, hkeys⟩ := List.forall_mem_cons.1 hkeys
    rw [intercalate_cons, List.mem_append, List.mem_flatMap]
    rintro (hmem | ⟨other, hother, hmem⟩)
    · exact hkey hmem
    · exact (List.mem_append.1 hmem).elim h (hkeys other hother)

/-- The literal of keys is their path in single quotes, with the single quotes of the keys
doubled. -/
theorem PathKeys.keysLiteral_eq (h : PathKeys keys) :
    keysLiteral keys = '\'' :: doubleChar '\'' ('$' :: keys.flatMap pathStep) ++ ['\''] := by
  have hplain : '\\' ∉ arrow.intercalate keys := not_mem_intercalate (by decide) h.no_backslash
  have hdoubled : ∀ key ∈ keys.map (doubleChar '\''), hasArrow key = false := by
    intro key hkey
    obtain ⟨key, hmem, rfl⟩ := List.mem_map.1 hkey
    exact hasArrow_doubleChar (hasArrow_eq_false_iff.2 (h.no_arrow key hmem))
  have hbetween : replaceAll arrow ['"', '.', '"'] (doubleQuotes (arrow.intercalate keys)) =
      doubleChar '\'' (['"', '.', '"'].intercalate keys) := by
    rw [doubleQuotes_of_plain hplain, doubleChar_intercalate (by decide),
      replaceAll_arrow _ hdoubled, doubleChar_intercalate (by decide)]
  rw [keysLiteral, pathLiteral, hbetween, ← steps_eq h.some_key, doubleChar_cons, doubleChar_append,
    doubleChar_append]
  simp [doubleChar]

/-- The literal of keys stands for their path. -/
theorem PathKeys.unquoted_keysLiteral (h : PathKeys keys) :
    unquoted (keysLiteral keys) = some ('$' :: keys.flatMap pathStep) := by
  rw [h.keysLiteral_eq]
  exact unquotedFrom_doubleChar _

/-- The keys are read back from their literal. -/
theorem PathKeys.keysOfPath_keysLiteral (h : PathKeys keys) :
    (unquoted (keysLiteral keys)).bind keysOfPath = some keys := by
  rw [h.unquoted_keysLiteral]
  exact keysOfPath_steps h.no_quote

/-- Other keys have another literal. -/
theorem PathKeys.keysLiteral_inj (h : PathKeys keys) (h' : PathKeys keys')
    (heq : keysLiteral keys' = keysLiteral keys) : keys' = keys := by
  refine Option.some.inj ?_
  rw [← h'.keysOfPath_keysLiteral, heq, h.keysOfPath_keysLiteral]

/-- A selector is cut between its column and its keys. -/
theorem splitArrow?_keySelector (h : ¬arrow <:+: column) :
    splitArrow? (keySelector column keys) = some (column, arrow.intercalate keys) :=
  splitArrow?_append (hasArrow_eq_false_iff.2 h) _

end

/-! ## Whole selectors -/

/-- The call that reads a value off a JSON document, as the dialects with path literals write it. -/
def documentCall (dialect : Dialect) (arguments : List Char) : List Char :=
  if dialect = .mysql then "json_unquote(json_extract(".toList ++ arguments ++ "))".toList
  else "json_extract(".toList ++ arguments ++ ")".toList

section

variable {dialect : Dialect} {p column : List Char} {keys : List (List Char)}

/-- Under a prefix without points a column is quoted in fewer steps than there are. -/
private theorem column_steps (hjson : dialect ≠ .ansi) (hp : '.' ∉ p) (cs : List Char) :
    ∃ field, ∀ fuel, 7 < fuel → wrapFrom dialect (some p) fuel false cs = .ok field := by
  have hcircles : ¬Circles dialect p cs := by
    rintro ⟨table, schema, _, hschema, _⟩
    rw [tableOf?_of_dotless hp] at hschema
    exact nomatch hschema
  obtain ⟨result, hsteps, ⟨field, rfl⟩ | ⟨hansi, _⟩⟩ := endsAfter_of_not_circles false hcircles
  · exact ⟨field, hsteps⟩
  · exact absurd hansi hjson

/-- A selector is quoted as a call with the quoted column and the literal of its keys. -/
theorem wrap_selector_keys (hdialect : dialect = .mysql ∨ dialect = .sqlite) (hp : '.' ∉ p)
    (hcolumn : ¬arrow <:+: column) (halias : hasAlias (keySelector column keys) = false) :
    ∃ field, wrap dialect (some p) false column = .ok field ∧
      fieldAndPath (wrap dialect (some p) false) (keySelector column keys) =
        .ok (field, ", ".toList ++ keysLiteral keys) ∧
      wrap dialect (some p) false (keySelector column keys) =
        .ok (documentCall dialect (field ++ (", ".toList ++ keysLiteral keys))) := by
  have hansi : dialect ≠ .ansi := by
    rcases hdialect with rfl | rfl <;> decide
  obtain ⟨field, hfield⟩ := column_steps hansi hp column
  have hcut : splitArrow? (keySelector column keys) = some (column, arrow.intercalate keys) :=
    splitArrow?_keySelector hcolumn
  have hparts : ∀ fuel, 7 < fuel →
      fieldAndPath (wrapFrom dialect (some p) fuel false) (keySelector column keys) =
        .ok (field, ", ".toList ++ keysLiteral keys) := by
    intro fuel hfuel
    rw [fieldAndPath, hcut]
    dsimp only
    rw [hfield fuel hfuel]
    rfl
  refine ⟨field, hfield wrapFuel (by decide), hparts wrapFuel (by decide), ?_⟩
  have harrow : hasArrow (keySelector column keys) = true := by
    rw [hasArrow, hcut]
    rfl
  rw [wrap, wrapFuel, wrapFrom_succ, hasAlias_eq_false.1 halias]
  dsimp only
  rw [if_pos harrow]
  rcases hdialect with rfl | rfl
  · rw [wrapSelector, hparts 11 (by omega), documentCall, if_pos rfl, ← List.append_assoc _ field]
    rfl
  · rw [wrapSelector, hparts 11 (by omega), documentCall, if_neg (by decide),
      ← List.append_assoc _ field]
    rfl

end

end Name

namespace Grammar

open Name

/-- A selector of keys is quoted as a call with the quoted column and one literal.  The literal
stands for the path of the keys, they are read back from it, and other keys have another one. -/
theorem wrap_selector {g : Grammar} {p : String} {column : List Char} {keys : List (List Char)}
    (hdialect : g.dialect = .mysql ∨ g.dialect = .sqlite) (hp : g.tablePrefix = .text p)
    (hdot : '.' ∉ p.toList) (hcolumn : ¬arrow <:+: column) (hkeys : PathKeys keys)
    (halias : hasAlias (keySelector column keys) = false) :
    ∃ field, g.wrap (quotedText column) = .ok (quotedText field) ∧
      g.wrap (quotedText (keySelector column keys)) =
        .ok (quotedText (documentCall g.dialect (field ++ (", ".toList ++ keysLiteral keys)))) ∧
      g.fieldAndPath (String.ofList (keySelector column keys)) =
        .ok (String.ofList field, String.ofList (", ".toList ++ keysLiteral keys)) ∧
      unquoted (keysLiteral keys) = some ('$' :: keys.flatMap pathStep) ∧
      (unquoted (keysLiteral keys)).bind keysOfPath = some keys ∧
      ∀ keys', PathKeys keys' → keysLiteral keys' = keysLiteral keys → keys' = keys := by
  obtain ⟨field, hfield, hparts, hwrapped⟩ := wrap_selector_keys hdialect hdot hcolumn halias
  refine ⟨field, ?_, ?_, ?_, hkeys.unquoted_keysLiteral, hkeys.keysOfPath_keysLiteral,
    fun keys' hkeys' heq => hkeys.keysLiteral_inj hkeys' heq⟩
  · rw [wrap_text hp, hfield]
    rfl
  · rw [wrap_text hp, hwrapped]
    rfl
  · rw [fieldAndPath, namePrefix_of_text hp, String.toList_ofList, hparts]
    rfl

/-- Keys with a dash at their end, a bracket at their start and single quotes are read back. -/
theorem wrap_selector_dashes :
    ∃ field, wrap { dialect := .sqlite, tablePrefix := .text "app_" }
        (quotedText (keySelector "posts.meta-".toList ["a-".toList, ">b'".toList, "?".toList])) =
          .ok (quotedText ("json_extract(".toList ++ (field ++ (", ".toList ++
            keysLiteral ["a-".toList, ">b'".toList, "?".toList])) ++ ")".toList)) ∧
      unquoted (keysLiteral ["a-".toList, ">b'".toList, "?".toList]) =
        some "$.\"a-\".\">b'\".\"?\"".toList := by
  have hkeys : PathKeys ["a-".toList, ">b'".toList, "?".toList] :=
    ⟨by decide, by decide +kernel, by decide +kernel, by decide +kernel⟩
  have hcolumn : ¬arrow <:+: "posts.meta-".toList := by decide +kernel
  have halias :
      hasAlias (keySelector "posts.meta-".toList ["a-".toList, ">b'".toList, "?".toList]) =
        false := by decide +kernel
  have hprefix : ({ dialect := .sqlite, tablePrefix := .text "app_" } : Grammar).tablePrefix =
      .text "app_" := rfl
  obtain ⟨field, _, hwrapped, _, hread, _⟩ :=
    wrap_selector (.inr rfl) hprefix (by decide +kernel) hcolumn hkeys halias
  exact ⟨field, hwrapped, hread⟩

end Grammar

end FluentSql
