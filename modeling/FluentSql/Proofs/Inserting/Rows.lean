import FluentSql.Proofs.Balance
import FluentSql.Proofs.Fetching.Inquiries
import FluentSql.Proofs.Inserting

/-!
# One row for each record

An insert of records without columns makes one row of defaults, however many
records there are.  The two calls that insert records look for one in different
ways: one of them counts the records, the other asks whether its argument is
empty.

* `InsertedRows` are the rows that an insert makes, and `rowsRead` is their
  number as it is read off the text.
* `insertSql_records` is the insert of records as a text of such rows.
* `Store.records?` are the records of an argument, and `Store.handed` is what is
  sent for a statement.
* `QueryId.insert_sent` and `QueryId.insertOrIgnore_sent` are what the two calls
  send.
* `QueryId.rows_of_records` says how many rows there are, and when a statement
  is sent.
-/

namespace FluentSql

open Name

/-! ## Groups in parentheses -/

/-- The number of groups in parentheses of a text, outside quotes and other parentheses, given the
quote and the number of parentheses that were open before it. -/
def groupsIn (quote : Option Char) (depth : Nat) : List Char → Nat
  | [] => 0
  | c :: rest =>
    if quote = none ∧ c = '(' then groupsIn none (depth + 1) rest + if depth = 0 then 1 else 0
    else if quote = none ∧ c = ')' then groupsIn none (depth - 1) rest
    else groupsIn (quoteAfter quote c) depth rest

/-- The rows that an insert makes, as its text tells.  The first group holds the columns, and every
other one is a row.  An insert without groups makes one row of defaults. -/
def rowsRead (text : String) : Nat :=
  match groupsIn none 0 text.toList with
  | 0 => 1
  | rows + 1 => rows

theorem groupsIn_other {quote : Option Char} {c : Char} (h : quote = none → c ≠ '(' ∧ c ≠ ')')
    (depth : Nat) (cs : List Char) :
    groupsIn quote depth (c :: cs) = groupsIn (quoteAfter quote c) depth cs := by
  rw [groupsIn, if_neg fun hc => (h hc.1).1 hc.2, if_neg fun hc => (h hc.1).2 hc.2]

/-- The groups of a text are counted before those of what follows it. -/
theorem groupsIn_append {quote : Option Char} {depth after : Nat} {a : List Char}
    (h : depthAfter quote depth a = some after) (b : List Char) :
    groupsIn quote depth (a ++ b) =
      groupsIn quote depth a + groupsIn (openQuote quote a) after b := by
  induction a generalizing quote depth with
  | nil =>
    rw [depthAfter_nil] at h
    cases h
    exact (Nat.zero_add _).symm
  | cons c a ih =>
    rw [List.cons_append, openQuote_cons]
    by_cases hopen : quote = none ∧ c = '('
    · obtain ⟨rfl, rfl⟩ := hopen
      rw [depthAfter_open] at h
      have hrest := ih h
      simp only [groupsIn, and_self, if_true]
      rw [hrest]
      exact Nat.add_right_comm _ _ _
    · by_cases hclose : quote = none ∧ c = ')'
      · obtain ⟨rfl, rfl⟩ := hclose
        cases depth with
        | zero => cases h
        | succ depth =>
          rw [depthAfter_close] at h
          exact ih h
      · have hother : quote = none → c ≠ '(' ∧ c ≠ ')' := fun hq =>
          ⟨fun hc => hopen ⟨hq, hc⟩, fun hc => hclose ⟨hq, hc⟩⟩
        rw [depthAfter_other hother] at h
        rw [groupsIn_other hother, groupsIn_other hother, ih h]

/-- Inside parentheses there are no groups, as long as these stay open. -/
theorem groupsIn_inside {quote : Option Char} {depth after : Nat} {cs : List Char}
    (h : depthAfter quote depth cs = some after) : groupsIn quote (depth + 1) cs = 0 := by
  induction cs generalizing quote depth with
  | nil => rfl
  | cons c cs ih =>
    by_cases hopen : quote = none ∧ c = '('
    · obtain ⟨rfl, rfl⟩ := hopen
      exact ih h
    · by_cases hclose : quote = none ∧ c = ')'
      · obtain ⟨rfl, rfl⟩ := hclose
        cases depth with
        | zero => cases h
        | succ depth => exact ih h
      · have hother : quote = none → c ≠ '(' ∧ c ≠ ')' := fun hq =>
          ⟨fun hc => hopen ⟨hq, hc⟩, fun hc => hclose ⟨hq, hc⟩⟩
        rw [depthAfter_other hother] at h
        rw [groupsIn_other hother, ih h]

namespace Balanced

variable {a cs : List Char}

theorem groupsIn_append (h : Balanced a) (b : List Char) :
    groupsIn none 0 (a ++ b) = groupsIn none 0 a + groupsIn none 0 b := by
  rw [FluentSql.groupsIn_append h.level, h.closed]

/-- A balanced text in parentheses is one group. -/
theorem groupsIn_enclosed (h : Balanced cs) : groupsIn none 0 ('(' :: cs ++ [')']) = 1 := by
  have hinside := groupsIn_inside h.level
  have hlevel := h.depthAfter 1
  show groupsIn none 1 (cs ++ [')']) + 1 = 1
  rw [FluentSql.groupsIn_append hlevel, hinside, h.closed]
  rfl

end Balanced

/-- A text that closes its quotes and parentheses, and has no group. -/
structure Groupless (text : String) : Prop where
  balanced : Balanced text.toList
  groups : groupsIn none 0 text.toList = 0

instance (text : String) : Decidable (Groupless text) :=
  decidable_of_iff (Balanced text.toList ∧ groupsIn none 0 text.toList = 0)
    ⟨fun h => ⟨h.1, h.2⟩, fun h => ⟨h.balanced, h.groups⟩⟩

/-- The groups between separators are those of the texts. -/
theorem groupsIn_joinWith {separator : String} (hsep : Groupless separator) {texts : List String}
    (h : ∀ t ∈ texts, Balanced t.toList ∧ groupsIn none 0 t.toList = 1) :
    Balanced (joinWith separator texts).toList ∧
      groupsIn none 0 (joinWith separator texts).toList = texts.length := by
  induction texts with
  | nil => exact ⟨⟨rfl, rfl⟩, rfl⟩
  | cons t rest ih =>
    obtain ⟨hfirst, hone⟩ := h t List.mem_cons_self
    cases rest with
    | nil => exact ⟨hfirst, hone⟩
    | cons next rest =>
      obtain ⟨hbalanced, hgroups⟩ := ih fun u hu => h u (List.mem_cons_of_mem t hu)
      have htext : (joinWith separator (t :: next :: rest)).toList =
          t.toList ++ (separator.toList ++ (joinWith separator (next :: rest)).toList) := by
        show (t ++ separator ++ joinWith separator (next :: rest)).toList = _
        rw [String.toList_append, String.toList_append, List.append_assoc]
      rw [htext]
      refine ⟨hfirst.append (hsep.balanced.append hbalanced), ?_⟩
      rw [hfirst.groupsIn_append, hsep.balanced.groupsIn_append, hone, hsep.groups, hgroups,
        Nat.zero_add, Nat.add_comm]
      rfl

/-! ## The rows of an insert -/

/-- The rows that an insert makes: one of defaults, or one for each group of values. -/
inductive InsertedRows where
  /-- One row of defaults. -/
  | defaults
  /-- The quoted columns, and what stands for the values of each row. -/
  | groups (columns : String) (values : List String)
  deriving DecidableEq

namespace InsertedRows

/-- The number of rows. -/
def count : InsertedRows → Nat
  | defaults => 1
  | groups _ values => values.length

/-- The insert of rows into a table. -/
def text (g : Grammar) (table : String) : InsertedRows → String
  | defaults => g.insertDefaultsSql table
  | groups columns values => "insert into " ++ table ++ " (" ++ columns ++ ") values " ++
      joinWith ", " (values.map fun group => "(" ++ group ++ ")")

/-- The columns and the values close their quotes and parentheses. -/
def Closed : InsertedRows → Prop
  | defaults => True
  | groups columns values => Balanced columns.toList ∧ ∀ group ∈ values, Balanced group.toList

/-- The rows of an insert are read off its text. -/
theorem rowsRead_text (g : Grammar) {table : String} (htable : Groupless table)
    {rows : InsertedRows} (h : rows.Closed) : rowsRead (rows.text g table) = rows.count := by
  have hinto : Groupless "insert into " := by decide
  have hcomma : Groupless ", " := by decide
  cases rows with
  | defaults =>
    have hgroups : ∀ after : String, groupsIn none 0 ("insert into " ++ table ++ after).toList =
        groupsIn none 0 after.toList := by
      intro after
      rw [String.toList_append, String.toList_append, List.append_assoc,
        hinto.balanced.groupsIn_append, htable.balanced.groupsIn_append, hinto.groups,
        htable.groups, Nat.zero_add, Nat.zero_add]
    show rowsRead (g.insertDefaultsSql table) = 1
    unfold Grammar.insertDefaultsSql rowsRead
    by_cases hd : g.dialect = .mysql
    · rw [if_pos hd, hgroups]
      rfl
    · rw [if_neg hd, hgroups]
      rfl
  | groups columns values =>
    obtain ⟨hcolumns, hvalues⟩ := h
    have henclosed : ∀ t ∈ values.map fun group => "(" ++ group ++ ")",
        Balanced t.toList ∧ groupsIn none 0 t.toList = 1 := by
      intro t ht
      obtain ⟨group, hgroup, rfl⟩ := List.mem_map.1 ht
      have htext : ("(" ++ group ++ ")").toList = '(' :: group.toList ++ [')'] := by
        rw [String.toList_append, String.toList_append]
        rfl
      rw [htext]
      exact ⟨(hvalues group hgroup).enclosed, (hvalues group hgroup).groupsIn_enclosed⟩
    obtain ⟨hbalanced, hcount⟩ := groupsIn_joinWith hcomma henclosed
    have htext : (text g table (groups columns values)).toList =
        "insert into ".toList ++ (table.toList ++ (" ".toList ++
          (('(' :: columns.toList ++ [')']) ++ (" values ".toList ++
            (joinWith ", " (values.map fun group => "(" ++ group ++ ")")).toList)))) := by
      unfold text
      dsimp only
      repeat rw [String.toList_append]
      repeat rw [List.append_assoc]
      rfl
    have hspace : Groupless " " := by decide
    have hword : Groupless " values " := by decide
    have hgroups : groupsIn none 0 (text g table (groups columns values)).toList =
        values.length + 1 := by
      rw [htext, hinto.balanced.groupsIn_append, htable.balanced.groupsIn_append,
        hspace.balanced.groupsIn_append, hcolumns.enclosed.groupsIn_append,
        hword.balanced.groupsIn_append, hinto.groups, htable.groups, hspace.groups,
        hcolumns.groupsIn_enclosed, hword.groups, hcount, List.length_map]
      omega
    unfold rowsRead
    rw [hgroups]
    rfl

end InsertedRows

/-! ## Records of an argument -/

/-- An argument of an insert holds records: a map is one record, and a list or a tuple holds as many
as it has elements. -/
inductive Store.HoldsRecords (s : Store) : Value → List (List (Value × Value)) → Prop where
  | one {v : Value} {record : List (Value × Value)} (h : s.entries? v = some record) :
    HoldsRecords s v [record]
  | many {v : Value} {items : List Value} {records : List (List (Value × Value))}
    (hitems : v.listItems? = some items)
    (h : List.Forall₂ (fun item record => s.entries? item = some record) items records) :
    HoldsRecords s v records

/-- Records have the columns of the first one. -/
def SameColumns (records : List (List (Value × Value))) : Prop :=
  ∀ first, records.head? = some first →
    ∀ record ∈ records, sameKeys (record.map (·.1)) (first.map (·.1)) = true

section

variable {s : Store} {v : Value} {records : List (List (Value × Value))}

theorem Value.now_runOn_of_entries {record : List (Value × Value)}
    (h : s.entries? v = some record) : v.now.runOn s = (.ok (.map record), s) := by
  cases v with
  | map entries =>
    cases h
    rfl
  | object handle =>
    cases handle with
    | bindings id =>
      cases h
      rfl
    | _ => cases h
  | _ => cases h

/-- A list or a tuple is itself now, and has the same elements. -/
theorem Value.listItems?_cases {items : List Value} (h : v.listItems? = some items) :
    v = .list items ∨ v = .tuple items := by
  cases v with
  | list _ =>
    cases h
    exact .inl rfl
  | tuple _ =>
    cases h
    exact .inr rfl
  | _ => cases h

namespace Store.HoldsRecords

theorem recordsOf_runOn (run : Runner) (h : s.HoldsRecords v records) :
    (recordsOf run v).runOn s = (.ok records, s) := by
  cases h with
  | one hentries =>
    unfold recordsOf
    rw [Action.runOn_bind, Value.now_runOn_of_entries hentries]
    rfl
  | many hitems hrecords =>
    have hlist := FluentSql.recordsOf_runOn run hrecords
    rcases Value.listItems?_cases hitems with rfl | rfl
    · exact hlist
    · exact hlist

/-- An argument is falsy if it holds no record, and if it is a record without columns. -/
theorem truthy_iff (h : s.HoldsRecords v records) :
    v.truthy = true ↔ records ≠ [] ∧ v ≠ .map [] := by
  cases h with
  | one hentries =>
    cases v with
    | map entries => cases entries <;> simp [Value.truthy]
    | object handle => exact iff_of_true rfl ⟨List.cons_ne_nil _ _, by simp⟩
    | _ => cases hentries
  | many hitems hrecords =>
    have hempty : ∀ {items : List Value},
        List.Forall₂ (fun item record => s.entries? item = some record) items records →
          (items.isEmpty = false ↔ records ≠ []) := by
      intro items hrecords
      cases hrecords with
      | nil => exact iff_of_false (by decide) fun hne => hne rfl
      | cons _ _ => exact iff_of_true rfl (List.cons_ne_nil _ _)
    rcases Value.listItems?_cases hitems with rfl | rfl
    · simp [Value.truthy, ← hempty hrecords]
    · simp [Value.truthy, ← hempty hrecords]

end Store.HoldsRecords

/-! ## Records in the order of the first -/

/-- A record with the columns of the first is brought into their order. -/
theorem alignRecord_same {columns : List Value} {record : List (Value × Value)}
    (h : sameKeys (record.map (·.1)) columns = true) :
    ∃ aligned, alignRecord columns record = .ok aligned ∧ aligned.map (·.1) = columns := by
  have hfound : ∀ column ∈ columns, ∃ value, lookupKey column record = some value := by
    intro column hcolumn
    have hany := List.all_eq_true.1 (Bool.and_eq_true_iff.1 h).2 column hcolumn
    rw [List.any_map] at hany
    obtain ⟨entry, hentry⟩ :=
      Option.isSome_iff_exists.1 (List.find?_isSome.2 (List.any_eq_true.1 hany))
    exact ⟨entry.2, congrArg (Option.map Prod.snd) hentry⟩
  obtain ⟨aligned, haligned⟩ := mapM_isOk (f := fun column =>
    (lookupKey column record).elim (.error (.value .missingKey)) fun value => .ok (column, value))
    fun column hcolumn => by
      obtain ⟨value, hvalue⟩ := hfound column hcolumn
      exact ⟨(column, value), by rw [hvalue]; rfl⟩
  refine ⟨aligned, by rw [alignRecord, if_pos h, haligned], ?_⟩
  have hforall := mapM_eq_ok_iff.1 haligned
  clear haligned h
  induction hforall with
  | nil => rfl
  | @cons column entry _ _ hentry _ ih =>
    obtain ⟨value, hvalue⟩ := hfound column List.mem_cons_self
    rw [hvalue] at hentry
    cases hentry
    rw [List.map_cons, ih fun c hc => hfound c (List.mem_cons_of_mem _ hc)]

/-- Records with the same columns are brought into one order.  Without columns none is left. -/
theorem alignRecords_same {first : List (Value × Value)} (hfirst : records.head? = some first)
    (h : SameColumns records) :
    ∃ aligned, alignRecords records = .ok aligned ∧
      aligned.length = if first = [] then 0 else records.length := by
  obtain ⟨rest, rfl⟩ := List.head?_eq_some_iff.1 hfirst
  obtain ⟨aligned, haligned⟩ := mapM_isOk (f := alignRecord (first.map (·.1)))
    fun record hrecord => by
      obtain ⟨aligned, haligned, _⟩ := alignRecord_same (h first rfl record hrecord)
      exact ⟨aligned, haligned⟩
  refine ⟨if first = [] then [] else aligned, ?_, ?_⟩
  · unfold alignRecords
    dsimp only
    rw [haligned]
    cases first with
    | nil => rfl
    | cons entry first => rfl
  · by_cases hempty : first = []
    · rw [if_pos hempty, if_pos hempty]
      rfl
    · rw [if_neg hempty, if_neg hempty]
      exact (mapM_eq_ok_iff.1 haligned).length_eq.symm

end

/-! ## Compiled records -/

/-- The rows of some records: the first gives the columns, and without records there is one row of
defaults. -/
def Grammar.insertedRows (g : Grammar) (records : List (List (Value × Value))) :
    Except Failure InsertedRows :=
  match records with
  | [] => .ok .defaults
  | first :: _ => do
    let columns ← g.columnize (first.map (·.1))
    let values ← records.mapM fun record => Grammar.parameterize (record.map (·.2))
    return .groups columns values

/-- The insert of some records as a text of rows. -/
def Grammar.recordsSql (g : Grammar) (source : Value) (records : List (List (Value × Value))) :
    Except Failure String := do
  let table ← g.wrappedTable source
  return (← g.insertedRows records).text g table

/-- Records with everything in them that follows a query as it is now. -/
def Store.shownRecords (s : Store) (records : List (List (Value × Value))) :
    List (List (Value × Value)) :=
  records.map (·.map fun entry => (s.shown entry.1, s.shown entry.2))

section

variable {g : Grammar} {oracle : Oracle} {q : Query} {records : List (List (Value × Value))}

/-- There is a row for each record, and one of defaults if there is no record. -/
theorem count_insertedRows {rows : InsertedRows} (h : g.insertedRows records = .ok rows) :
    rows.count = max 1 records.length := by
  cases records with
  | nil =>
    cases h
    rfl
  | cons first rest =>
    obtain ⟨columns, _, h⟩ := bind_eq_ok h
    obtain ⟨values, hvalues, h⟩ := bind_eq_ok h
    cases h
    have hlength : values.length = rest.length + 1 :=
      (mapM_eq_ok_iff.1 hvalues).length_eq.symm
    show values.length = max 1 (rest.length + 1)
    omega

theorem Store.shown_recordsValue (s : Store) (records : List (List (Value × Value))) :
    s.shown (recordsValue records) = recordsValue (s.shownRecords records) := by
  have hrecord : ∀ record : List (Value × Value), s.shown (.map record) =
      .map (record.map fun entry => (s.shown entry.1, s.shown entry.2)) := by
    intro record
    show Value.map (Value.substituteEntries _ record) = _
    rw [substituteEntries_eq]
    rfl
  show Value.list (Value.substituteAll _ _) = _
  rw [Value.substituteAll_eq_map, recordsValue, shownRecords]
  simp only [List.map_map]
  exact congrArg Value.list (List.map_congr_left fun record _ => hrecord record)

/-- The groups of an insert are the values of its records, each between parentheses. -/
theorem mapM_groups (records : List (List (Value × Value))) :
    (records.map Value.map).mapM (fun record => do
        return "(" ++ (← Grammar.parameterize (← Value.valuesBy oracle record)) ++ ")") =
      (records.mapM fun record => Grammar.parameterize (record.map (·.2))).map
        (List.map fun group => "(" ++ group ++ ")") := by
  induction records with
  | nil => rfl
  | cons record rest ih =>
    have hvalues : (Value.map record).valuesBy oracle = .ok (record.map (·.2)) := rfl
    rw [List.map_cons, List.mapM_cons, List.mapM_cons, hvalues, ih]
    dsimp only [bind, Except.bind]
    cases Grammar.parameterize (record.map (·.2)) with
    | error e => rfl
    | ok group =>
      cases rest.mapM fun record => Grammar.parameterize (record.map (·.2)) <;> rfl

/-- Records that are maps are written without asking for anything. -/
theorem insertSql_records (records : List (List (Value × Value))) :
    g.insertSql oracle q (recordsValue records) = g.recordsSql q.source records := by
  unfold Grammar.insertSql Grammar.recordsSql
  cases g.wrappedTable q.source with
  | error e => rfl
  | ok table =>
    cases records with
    | nil => rfl
    | cons first rest =>
      have hrows : g.insertedRows (first :: rest) = (do
          let columns ← g.columnize (first.map (·.1))
          let values ← (first :: rest).mapM fun record => Grammar.parameterize (record.map (·.2))
          return .groups columns values) := rfl
      show (do
        let columns ← g.columnize (first.map (·.1))
        let groups ← ((first :: rest).map Value.map).mapM fun record => do
          return "(" ++ (← Grammar.parameterize (← Value.valuesBy oracle record)) ++ ")"
        return "insert into " ++ table ++ " (" ++ columns ++ ") values " ++
          joinWith ", " groups) = (g.insertedRows (first :: rest)).map (·.text g table)
      rw [mapM_groups, hrows]
      cases g.columnize (first.map (·.1)) with
      | error e => rfl
      | ok columns =>
        cases (first :: rest).mapM fun record => Grammar.parameterize (record.map (·.2)) <;> rfl

theorem recordsSql_asksNothing (g : Grammar) (source : Value)
    (records : List (List (Value × Value))) : AsksNothing (g.recordsSql source records) := by
  refine (g.wrappedTable_asksNothing _).bind fun _ _ => AsksNothing.bind ?_ fun _ _ =>
    asksNothing_ok _
  cases records with
  | nil => exact asksNothing_ok _
  | cons first rest =>
    exact (g.columnize_asksNothing _).bind fun _ _ =>
      (AsksNothing.mapM fun _ _ => joinTexts_asksNothing _ _).bind fun _ _ => asksNothing_ok _

end

/-! ## Statements of a query -/

section

variable {s : Store} {q : QueryId} {id : GrammarId} {v : Value}
variable {records : List (List (Value × Value))}

/-- What is sent for a statement that a query has made: one statement, or none if it was not made,
has no connection, or cannot be prepared for the engine. -/
def Store.handed (s : Store) (q : QueryId) (made : Except Failure Statement) :
    Array SentStatement :=
  match made, (s.query q).connection with
  | .ok statement, some c =>
    match s.prepare c (.text statement.sql) (.list statement.bindings) with
    | .ok sent => #[sent.statement]
    | .error _ => #[]
  | _, _ => #[]

/-- Running a statement that was made sends what is handed over for it, and no more. -/
theorem sent_of_made {α : Type} {make : Action Statement} {made : Except Failure Statement}
    (hmake : make.runOn s = (made, s)) (read : StatementResult → Except Failure α) :
    ((do
      let statement ← make
      (← q.needConnection).run (.text statement.sql) (.list statement.bindings) read :
        Action α).runOn s).2.sent = s.sent ++ s.handed q made := by
  unfold Store.handed
  cases made with
  | error e =>
    rw [Action.runOn_bind_error hmake]
    exact Array.append_empty.symm
  | ok statement =>
    have hconnection := q.needConnection_runOn s
    rw [Action.runOn_bind_ok hmake]
    cases hc : (s.query q).connection with
    | none =>
      rw [hc] at hconnection
      rw [Action.runOn_bind_error hconnection]
      exact Array.append_empty.symm
    | some c =>
      rw [hc] at hconnection
      rw [Action.runOn_bind_ok hconnection]
      cases hprepare : s.prepare c (.text statement.sql) (.list statement.bindings) with
      | error e =>
        dsimp only
        rw [hprepare, ConnectionId.run_of_error hprepare]
        exact Array.append_empty.symm
      | ok sent =>
        dsimp only
        rw [hprepare]
        exact congrArg Ledger.sent (ConnectionId.run_of_ok read hprepare).2.1

section

variable (run : Runner) (hcompiler : (s.query q).grammar = .grammar id)
  (hstatements : (s.grammar id).namesOnly = false) (h : s.HoldsRecords v records)

include hcompiler hstatements h

/-- An insert of records that are maps is compiled at once from the records in the order of the
first. -/
theorem QueryId.insertStatement_settled
    {sql : Grammar → Oracle → Query → Value → Except Failure String}
    {written : List (List (Value × Value)) → Except Failure String}
    (hsql : ∀ oracle records, sql (s.grammar id) oracle (s.settled.query q) (recordsValue records) =
      written records)
    (hasks : ∀ records, AsksNothing (written records)) (method : String) :
    (q.insertStatement run v method sql).runOn s =
      (do
        let aligned ← alignRecords records
        return ⟨← written (s.shownRecords aligned), recordBindings aligned⟩, s) := by
  have hgrammar : s.settled.grammarFor (s.settled.query q).grammar method = .ok (s.grammar id) := by
    rw [Store.grammarFor_settled, hcompiler]
    exact if_neg fun hnames => absurd hnames.1 (Bool.eq_false_iff.1 hstatements)
  have hcompile : ∀ aligned, (q.compile run method fun g attached query =>
      sql g attached.oracle query (s.shown (recordsValue aligned))).runOn s =
        (written (s.shownRecords aligned), s) := by
    intro aligned
    have hcompiled : ∀ known, s.settled.compiled known q method (fun g attached query =>
        sql g attached.oracle query (s.shown (recordsValue aligned))) =
          written (s.shownRecords aligned) := by
      intro known
      unfold Store.compiled
      rw [hgrammar, s.shown_recordsValue]
      exact hsql _ _
    unfold QueryId.compile
    rw [consult_runOn run (by rw [hcompiled]; exact hasks _), hcompiled]
  unfold QueryId.insertStatement
  rw [Action.runOn_bind_ok (h.recordsOf_runOn run)]
  cases alignRecords records with
  | error e => exact Action.runOn_bind_error (Action.ofExcept_runOn _ s)
  | ok aligned =>
    rw [Action.runOn_bind_ok (Action.ofExcept_runOn _ s),
      Action.runOn_bind_ok (Value.shown_runOn _ s)]
    have hmade := hcompile aligned
    show _ = (do
      return (⟨← written (s.shownRecords aligned), recordBindings aligned⟩ : Statement), s)
    cases hwritten : written (s.shownRecords aligned) with
    | error e =>
      rw [hwritten] at hmade
      exact Action.runOn_bind_error hmade
    | ok sql =>
      rw [hwritten] at hmade
      exact Action.runOn_bind_ok hmade

theorem QueryId.toInsertSql_settled : (q.toInsertSql run v).runOn s =
    (do
      let aligned ← alignRecords records
      return ⟨← (s.grammar id).recordsSql (s.settled.query q).source (s.shownRecords aligned),
        recordBindings aligned⟩, s) :=
  QueryId.insertStatement_settled run hcompiler hstatements h
    (fun _ records => insertSql_records records) (fun _ => recordsSql_asksNothing _ _ _) _

/-- An insert that passes over rejected rows is compiled in the same way, whatever is asked. -/
theorem QueryId.toInsertOrIgnoreSql_settled (oracle : Oracle) :
    (q.toInsertOrIgnoreSql run v).runOn s =
      (do
        let aligned ← alignRecords records
        return ⟨← (s.grammar id).insertIgnoringSql oracle (s.settled.query q)
          (recordsValue (s.shownRecords aligned)), recordBindings aligned⟩, s) := by
  have hsql : ∀ other records, (s.grammar id).insertIgnoringSql other (s.settled.query q)
      (recordsValue records) = (s.grammar id).insertIgnoringSql oracle (s.settled.query q)
        (recordsValue records) := by
    intro other records
    unfold Grammar.insertIgnoringSql
    rw [insertSql_records, insertSql_records]
  exact QueryId.insertStatement_settled run hcompiler hstatements h hsql (fun records =>
    insertIgnoringSql_asksNothing (insertSql_records records ▸ recordsSql_asksNothing _ _ _)) _

/-- An insert sends its statement if there is a record. -/
theorem QueryId.insert_sent (hne : records ≠ []) : ((q.insert run v).runOn s).2.sent =
    s.sent ++ s.handed q ((q.toInsertSql run v).runOn s).1 := by
  obtain ⟨items, hitems, hgiven⟩ : ∃ items, s.HoldsRecords (.list items) records ∧
      (q.insert run v).runOn s = (q.insert run (.list items)).runOn s := by
    cases h with
    | @one _ hentries =>
      refine ⟨[.map _], .many rfl (.cons rfl .nil), ?_⟩
      unfold QueryId.insert
      rw [Action.runOn_bind_ok (Value.now_runOn_of_entries hentries)]
      rfl
    | @many items _ hitems hrecords =>
      refine ⟨items, .many rfl hrecords, ?_⟩
      rcases Value.listItems?_cases hitems with rfl | rfl
      · rfl
      · rfl
  have hsome : items.isEmpty = false := by
    cases hitems with
    | one hentries => cases hentries
    | many hlist hrecords =>
      cases hlist
      cases hrecords with
      | nil => exact absurd rfl hne
      | cons _ _ => rfl
  have hsame : (q.toInsertSql run (.list items)).runOn s = (q.toInsertSql run v).runOn s := by
    rw [QueryId.toInsertSql_settled run hcompiler hstatements hitems,
      QueryId.toInsertSql_settled run hcompiler hstatements h]
  have hmake : (q.toInsertSql run v).runOn s = (((q.toInsertSql run v).runOn s).1, s) := by
    rw [QueryId.toInsertSql_settled run hcompiler hstatements h]
  have hlist : (q.insert run (.list items)).runOn s = (do
      let statement ← q.toInsertSql run (.list items)
      (← q.needConnection).statement (.text statement.sql) (.list statement.bindings) :
        Action Unit).runOn s := by
    have hinsert : (q.insert run (.list items)).runOn s = (do
        if items.isEmpty then return ()
        let statement ← q.toInsertSql run (.list items)
        (← q.needConnection).statement (.text statement.sql) (.list statement.bindings) :
          Action Unit).runOn s := rfl
    rw [hinsert, hsome]
    rfl
  rw [hgiven, hlist, ← hsame]
  exact sent_of_made (hsame ▸ hmake) _

/-- An insert that passes over rejected rows sends its statement if its argument is not empty. -/
theorem QueryId.insertOrIgnore_sent (hne : v.truthy = true) :
    ((q.insertOrIgnore run v).runOn s).2.sent =
      s.sent ++ s.handed q ((q.toInsertOrIgnoreSql run v).runOn s).1 := by
  have hmake : (q.toInsertOrIgnoreSql run v).runOn s =
      (((q.toInsertOrIgnoreSql run v).runOn s).1, s) := by
    rw [QueryId.toInsertOrIgnoreSql_settled run hcompiler hstatements h
      fun _ _ => .error .wrongType]
  have hcall : q.insertOrIgnore run v = (do
      let statement ← q.toInsertOrIgnoreSql run v
      (← q.needConnection).affectingStatement (.text statement.sql)
        (.list statement.bindings)) := by
    unfold QueryId.insertOrIgnore
    rw [hne]
    rfl
  rw [hcall]
  exact sent_of_made hmake _

end

/-- Without a record there is nothing to insert. -/
theorem QueryId.insert_of_no_record (run : Runner) (h : s.HoldsRecords v []) :
    (q.insert run v).runOn s = (.ok (), s) := by
  cases h with
  | many hitems hrecords =>
    cases hrecords
    rcases Value.listItems?_cases hitems with rfl | rfl
    · rfl
    · rfl

/-- An empty argument is passed over. -/
theorem QueryId.insertOrIgnore_of_empty (run : Runner) (h : v.truthy = false) :
    (q.insertOrIgnore run v).runOn s = (.ok (.int 0), s) := by
  unfold QueryId.insertOrIgnore
  rw [h]
  rfl

/-- An insert makes as many rows as there are records, if these have columns or there is only one of
them.  Otherwise it makes one row of defaults.  The plain insert sends a statement if there is a
record.  The one that passes over rejected rows sends none either for one record without columns. -/
theorem QueryId.rows_of_records (run : Runner) (hcompiler : (s.query q).grammar = .grammar id)
    (hstatements : (s.grammar id).namesOnly = false) (h : s.HoldsRecords v records) :
    (∀ first, records.head? = some first → SameColumns records →
      ∃ aligned, alignRecords records = .ok aligned ∧
        (q.toInsertSql run v).runOn s =
          (((s.grammar id).recordsSql (s.settled.query q).source (s.shownRecords aligned)).map
            fun sql => ⟨sql, recordBindings aligned⟩, s) ∧
        ∀ statement, ((q.toInsertSql run v).runOn s).1 = .ok statement →
          ∃ table rows, (s.grammar id).wrappedTable (s.settled.query q).source = .ok table ∧
            (s.grammar id).insertedRows (s.shownRecords aligned) = .ok rows ∧
            statement.sql = rows.text (s.grammar id) table ∧
            (rows.count = if first = [] then 1 else records.length) ∧
            (rows.count = records.length ↔ first ≠ [] ∨ records.length = 1) ∧
            (Groupless table → rows.Closed → rowsRead statement.sql = rows.count)) ∧
    (records = [] → (q.insert run v).runOn s = (.ok (), s) ∧
      (q.insertOrIgnore run v).runOn s = (.ok (.int 0), s)) ∧
    (records ≠ [] → ((q.insert run v).runOn s).2.sent =
      s.sent ++ s.handed q ((q.toInsertSql run v).runOn s).1) ∧
    (records ≠ [] → v ≠ .map [] → ((q.insertOrIgnore run v).runOn s).2.sent =
      s.sent ++ s.handed q ((q.toInsertOrIgnoreSql run v).runOn s).1) ∧
    (v = .map [] → (q.insertOrIgnore run v).runOn s = (.ok (.int 0), s)) := by
  refine ⟨fun first hfirst hsame => ?_, fun hnone => ?_, fun hne => ?_, fun hne hmap => ?_,
    fun hmap => ?_⟩
  · obtain ⟨aligned, haligned, hlength⟩ := alignRecords_same hfirst hsame
    have hrun : (q.toInsertSql run v).runOn s =
        (((s.grammar id).recordsSql (s.settled.query q).source (s.shownRecords aligned)).map
          fun sql => ⟨sql, recordBindings aligned⟩, s) := by
      rw [QueryId.toInsertSql_settled run hcompiler hstatements h, haligned]
      rfl
    refine ⟨aligned, haligned, hrun, fun statement hstatement => ?_⟩
    rw [hrun] at hstatement
    obtain ⟨sql, hsql, rfl⟩ := map_eq_ok hstatement
    obtain ⟨table, htable, hsql⟩ := bind_eq_ok hsql
    obtain ⟨rows, hrows, hsql⟩ := bind_eq_ok hsql
    cases hsql
    have hsome : 0 < records.length := by
      obtain ⟨rest, rfl⟩ := List.head?_eq_some_iff.1 hfirst
      exact Nat.succ_pos _
    have hcount : rows.count = if first = [] then 1 else records.length := by
      rw [count_insertedRows hrows, Store.shownRecords, List.length_map, hlength]
      by_cases hempty : first = []
      · rw [if_pos hempty, if_pos hempty]
        rfl
      · rw [if_neg hempty, if_neg hempty]
        exact Nat.max_eq_right hsome
    refine ⟨table, rows, htable, hrows, rfl, hcount, ?_, fun hname hclosed =>
      InsertedRows.rowsRead_text _ hname hclosed⟩
    rw [hcount]
    by_cases hempty : first = []
    · rw [if_pos hempty]
      exact ⟨fun hone => .inr hone.symm, fun hone => hone.elim (absurd hempty) Eq.symm⟩
    · rw [if_neg hempty]
      exact iff_of_true rfl (.inl hempty)
  · have hfalsy : v.truthy = false := Bool.eq_false_iff.2 fun htruthy =>
      (h.truthy_iff.1 htruthy).1 hnone
    subst hnone
    exact ⟨QueryId.insert_of_no_record run h, QueryId.insertOrIgnore_of_empty run hfalsy⟩
  · exact QueryId.insert_sent run hcompiler hstatements h hne
  · exact QueryId.insertOrIgnore_sent run hcompiler hstatements h (h.truthy_iff.2 ⟨hne, hmap⟩)
  · exact QueryId.insertOrIgnore_of_empty run (hmap ▸ rfl)

/-- A query of a table in SQLite, on a connection with an engine. -/
def Store.ofInserts : Store :=
  { Store.answering (Query.ofTable "orders") [] with grammars := #[{ dialect := .sqlite }] }

/-- Two records without columns. -/
def emptyRecords : Value := .list [.map [], .map []]

/-- Two orders with their numbers. -/
def numberedOrders : Value :=
  .list [.map [(.text "number", .int 1)], .map [(.text "number", .int 2)]]

/-- Two records with a column make two rows, and both inserts send one statement for them. -/
theorem QueryId.rows_of_records_orders :
    (∃ statement, ((QueryId.toInsertSql Runner.idle ⟨0⟩ numberedOrders).runOn
        Store.ofInserts).1 = .ok statement ∧ rowsRead statement.sql = 2) ∧
      ((QueryId.insert Runner.idle ⟨0⟩ numberedOrders).runOn Store.ofInserts).2.sent.size = 1 ∧
      ((QueryId.insertOrIgnore Runner.idle ⟨0⟩ numberedOrders).runOn
        Store.ofInserts).2.sent.size = 1 := by
  let records : List (List (Value × Value)) :=
    [[(.text "number", .int 1)], [(.text "number", .int 2)]]
  have hrecords : Store.ofInserts.HoldsRecords numberedOrders records :=
    .many rfl (.cons rfl (.cons rfl .nil))
  have hsame : SameColumns records := by
    intro first hfirst record hrecord
    cases hfirst
    rcases List.mem_pair.1 hrecord with rfl | rfl <;> simp [sameKeys, Value.sameKey_text]
  have hknown : alignRecords records = .ok records := by
    simp [records, alignRecords, alignRecord, sameKeys, lookupKey, Value.sameKey_text]
    rfl
  obtain ⟨hrows, _, hinsert, hignoring, _⟩ := QueryId.rows_of_records (s := Store.ofInserts)
    (q := ⟨0⟩) Runner.idle rfl rfl hrecords
  obtain ⟨aligned, haligned, hrun, hread⟩ := hrows _ rfl hsame
  cases hknown.symm.trans haligned
  refine ⟨?_, ?_, ?_⟩
  · have htable : (Store.ofInserts.grammar ⟨0⟩).wrappedTable
        (Store.ofInserts.settled.query ⟨0⟩).source = .ok "\"orders\"" :=
      ok_of_toOption (by decide +kernel)
    have hgroups : (Store.ofInserts.grammar ⟨0⟩).insertedRows
        (Store.ofInserts.shownRecords records) = .ok (.groups "\"number\"" ["?", "?"]) :=
      ok_of_toOption (by decide +kernel)
    have hmade : ((QueryId.toInsertSql Runner.idle ⟨0⟩ numberedOrders).runOn Store.ofInserts).1 =
        .ok ⟨"insert into \"orders\" (\"number\") values (?), (?)", [.int 1, .int 2]⟩ := by
      rw [hrun]
      unfold Grammar.recordsSql
      rw [htable, hgroups]
      rfl
    obtain ⟨table, rows, htable', hgroups', _, hcount, _, hreads⟩ := hread _ hmade
    cases htable.symm.trans htable'
    cases hgroups.symm.trans hgroups'
    refine ⟨_, hmade, (hreads (by decide) ⟨by decide, ?_⟩).trans hcount⟩
    simp only [List.mem_cons, List.not_mem_nil, or_false, or_self, forall_eq]
    decide
  · rw [hinsert (List.cons_ne_nil _ _), hrun]
    decide +kernel
  · rw [hignoring (List.cons_ne_nil _ _) (by simp [numberedOrders]),
      QueryId.toInsertOrIgnoreSql_settled Runner.idle rfl rfl hrecords
        fun _ _ => .error .wrongType, hknown]
    decide +kernel

/-- Two records without columns make one row.  For one record without columns the plain insert sends
a statement, and the one that passes over rejected rows does not. -/
theorem QueryId.insert_loses_empty_records :
    ((QueryId.toInsertSql Runner.idle ⟨0⟩ emptyRecords).runOn
      Store.ofInserts).1.toOption.map Statement.sql = some "insert into \"orders\" default values" ∧
      rowsRead "insert into \"orders\" default values" = 1 ∧
      ((QueryId.insert Runner.idle ⟨0⟩ (.map [])).runOn Store.ofInserts).2.sentTexts =
        ["insert into \"orders\" default values"] ∧
      (QueryId.insertOrIgnore Runner.idle ⟨0⟩ (.map [])).runOn Store.ofInserts =
        (.ok (.int 0), Store.ofInserts) := by
  refine ⟨by decide +kernel, by decide, by decide +kernel, rfl⟩

end

end FluentSql
