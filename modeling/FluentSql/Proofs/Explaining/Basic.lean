import FluentSql.Proofs.Parts
import FluentSql.Proofs.Traversing

/-!
# Why compiling fails

Every failure of compiling has its reason in something that compiling comes
upon, and a text is the proof that nothing gave a reason to refuse.

* `Reason` sorts failures.
* `Grammar.Refuses`, `Item.Asks` and `Item.Writes` tell what is wrong with an
  item, and `Grammar.Blames` puts the parts among the items.
* `Explained` says that a computation fails only for the reasons of some items;
  `Explained.bind` and the lemmas after it are about steps one after the other.
* The `…_reason` lemmas are about failures of values.
-/

namespace FluentSql

-- Powers are those of the core library, whatever else is imported.
attribute [local instance (10000)] instPowNat

/-! ## Reasons -/

/-- The reasons for which compiling fails. -/
inductive Reason where
  /-- The dialect lacks a construct. -/
  | unsupported
  /-- A query is asked for something that an extension has to answer first. -/
  | unanswered
  /-- Compiling would never end. -/
  | endless
  /-- A value is of the wrong kind. -/
  | fault
deriving DecidableEq

/-- The reason of a failure. -/
def Failure.reason : Failure → Reason
  | unsupported _ => .unsupported
  | unanswered .. => .unanswered
  | value .endless => .endless
  | _ => .fault

theorem Failure.eq_unsupported {e : Failure} (h : e.reason = .unsupported) :
    ∃ feature, e = .unsupported feature := by
  cases e with
  | unsupported feature => exact ⟨feature, rfl⟩
  | value fault => cases fault <;> exact nomatch h
  | _ => exact nomatch h

theorem Failure.eq_endless {e : Failure} (h : e.reason = .endless) : e = .value .endless := by
  cases e with
  | value fault =>
    cases fault with
    | endless => rfl
    | _ => exact nomatch h
  | _ => exact nomatch h

/-- A text. -/
def Value.IsText (v : Value) : Prop :=
  ∃ s, v = text s

/-- A reference, or a raw fragment in its place. -/
def Value.IsReference (v : Value) : Prop :=
  v.IsText ∨ ∃ w, v = raw w ∧ w.IsText

/-- The reference that is quoted for a column. -/
def Value.reference? : Value → Option String
  | raw _ => none
  | v => some v.display

/-- Quoting a reference needs a path into a JSON column, and the dialect has none. -/
def Grammar.LacksPath (g : Grammar) (p s : String) : Prop :=
  g.dialect = .ansi ∧ Name.needsPath p.toList s.toList = true

/-- The dialect lacks what an item needs.  `p` is the prefix of the tables. -/
def Grammar.Refuses (g : Grammar) (p : String) : Item → Prop
  | .column v => ∃ s, v.reference? = some s ∧ g.LacksPath p s
  | .table v => ∃ s, v = .text s ∧ g.LacksPath p (p ++ s)
  | .jsonContains _ => g.dialect = .ansi ∨ g.dialect = .sqlite
  | .jsonLength _ => g.dialect = .ansi
  | _ => False

/-- The values of an item are of the kinds that can be written. -/
def Item.Writes : Item → Prop
  | column v | table v => v.IsReference
  | fragment v => v.IsText
  | value v => (Grammar.parameter v).IsText
  | number i => i.natAbs < 10 ^ Number.maxNumeralDigits
  | jsonContains c | jsonLength c => c.IsText
  | part _ => True
  | missing => False

/-- An item may have to ask a query: the column of a JSON document is no text. -/
def Item.Asks : Item → Prop
  | jsonContains c | jsonLength c => ¬c.IsText
  | _ => False

/-- For which reasons an item that is no part makes compiling fail. -/
def Grammar.Gives (g : Grammar) (p : String) (item : Item) : Reason → Prop
  | .unsupported => g.Refuses p item
  | .unanswered => item.Asks
  | .fault => ¬item.Writes
  | .endless => False

/-- For which reasons an item makes compiling fail, given those of the parts. -/
inductive Grammar.Blames (g : Grammar) (p : String) (inner : Part → Reason → Prop) :
    Item → Reason → Prop
  | own {item : Item} {reason : Reason} (h : g.Gives p item reason) : Blames g p inner item reason
  | part {part : Part} {reason : Reason} (h : inner part reason) :
    Blames g p inner (.part part) reason

/-- A computation fails only for a reason of one of the items.  If it is done, no item gives the
reason to refuse it or to go on for ever. -/
structure Explained (why : Item → Reason → Prop) (items : List Item) {α : Type}
    (r : Except Failure α) : Prop where
  done : ∀ a, r = .ok a → ∀ item ∈ items, ¬why item .unsupported ∧ ¬why item .endless
  failed : ∀ e, r = .error e → ∃ item ∈ items, why item e.reason

section

variable {why : Item → Reason → Prop} {xs ys : List Item} {item : Item} {α β : Type}
variable {r : Except Failure α}

theorem explained_ok (a : α) : Explained why [] (.ok a : Except Failure α) where
  done _ _ := nofun
  failed := nofun

/-- An item that gives no reason to refuse is written. -/
theorem explained_written (a : α) (h : ¬why item .unsupported ∧ ¬why item .endless) :
    Explained why [item] (.ok a : Except Failure α) where
  done _ _ _ hmem := List.mem_singleton.1 hmem ▸ h
  failed := nofun

theorem explained_error {e : Failure} (hitem : item ∈ xs) (h : why item e.reason) :
    Explained why xs (.error e : Except Failure α) where
  done := nofun
  failed _ he := ⟨item, hitem, Except.error.inj he ▸ h⟩

theorem Explained.congr (h : Explained why xs r) (hmem : ∀ item, item ∈ xs ↔ item ∈ ys) :
    Explained why ys r where
  done a ha item hitem := h.done a ha item ((hmem item).2 hitem)
  failed e he := by
    obtain ⟨item, hitem, hwhy⟩ := h.failed e he
    exact ⟨item, (hmem item).1 hitem, hwhy⟩

theorem Explained.bind {f : α → Except Failure β} (h : Explained why xs r)
    (hf : ∀ a, r = .ok a → Explained why ys (f a)) : Explained why (xs ++ ys) (r >>= f) := by
  cases r with
  | error e =>
    obtain ⟨item, hitem, hwhy⟩ := h.failed e rfl
    exact explained_error (List.mem_append_left _ hitem) hwhy
  | ok a =>
    refine ⟨fun b hb item hitem => ?_, fun e he => ?_⟩
    · rcases List.mem_append.1 hitem with hitem | hitem
      · exact h.done a rfl item hitem
      · exact (hf a rfl).done b hb item hitem
    · obtain ⟨item, hitem, hwhy⟩ := (hf a rfl).failed e he
      exact ⟨item, List.mem_append_right _ hitem, hwhy⟩

theorem Explained.bind_ok (h : Explained why xs r) (f : α → β) :
    Explained why xs (r >>= fun a => .ok (f a)) :=
  (h.bind fun _ _ => explained_ok _).congr fun _ => by rw [List.append_nil]

theorem Explained.map (h : Explained why xs r) (f : α → β) : Explained why xs (r.map f) := by
  cases r with
  | error e =>
    obtain ⟨item, hitem, hwhy⟩ := h.failed e rfl
    exact explained_error hitem hwhy
  | ok a => exact ⟨fun _ _ => h.done a rfl, nofun⟩

theorem Explained.mapM {f : α → Except Failure β} {as : List α} {items : α → List Item}
    (h : ∀ a ∈ as, Explained why (items a) (f a)) :
    Explained why (as.flatMap items) (as.mapM f) := by
  induction as with
  | nil => exact explained_ok _
  | cons a as ih =>
    rw [List.mapM_cons, List.flatMap_cons]
    refine (h a List.mem_cons_self).bind fun _ _ => ?_
    exact (ih fun b hb => h b (List.mem_cons_of_mem a hb)).bind_ok _

/-- The same for elements of which each writes one item. -/
theorem Explained.mapM_single {f : α → Except Failure β} {as : List α} {item : α → Item}
    (h : ∀ a ∈ as, Explained why [item a] (f a)) : Explained why (as.map item) (as.mapM f) := by
  rw [List.map_eq_flatMap]
  exact .mapM h

/-- What is no text cannot be joined with others. -/
theorem joinTexts_eq_error {separator : String} {vs : List Value} {e : Failure}
    (h : joinTexts separator vs = .error e) : e.reason = .fault ∧ ∃ v ∈ vs, ¬v.IsText := by
  have hmapM : vs.mapM Value.asText = .error e := by
    unfold joinTexts at h
    cases htexts : vs.mapM Value.asText with
    | error e' =>
      rw [htexts] at h
      exact congrArg _ (Except.error.inj h)
    | ok texts =>
      rw [htexts] at h
      exact nomatch h
  have hexplained : Explained (fun item reason => ∃ v, item = .fragment v ∧ reason = .fault ∧
      ¬v.IsText) (vs.map .fragment) (vs.mapM Value.asText) := by
    refine .mapM_single fun v _ => ?_
    cases v with
    | text s => exact explained_written s ⟨by simp, by simp⟩
    | _ => exact explained_error (List.mem_singleton_self _) ⟨_, rfl, rfl, fun ⟨_, h⟩ => nomatch h⟩
  obtain ⟨item, hitem, v, rfl, hreason, hv⟩ := hexplained.failed e hmapM
  obtain ⟨w, hw, hsame⟩ := List.mem_map.1 hitem
  cases hsame
  exact ⟨hreason, v, hw, hv⟩

/-- Texts are joined.  A fragment that is no text is the fault of the item that wrote it. -/
theorem Explained.joinTexts {f : α → Except Failure Value} {as : List α} {item : α → Item}
    (h : ∀ a ∈ as, Explained why [item a] (f a))
    (htext : ∀ a ∈ as, ∀ v, f a = .ok v → ¬v.IsText → why (item a) .fault) (separator : String) :
    Explained why (as.map item) (as.mapM f >>= joinTexts separator) := by
  have hall := Explained.mapM_single h
  cases hvs : as.mapM f with
  | error e =>
    obtain ⟨item, hitem, hwhy⟩ := hall.failed e hvs
    exact explained_error hitem hwhy
  | ok vs =>
    refine ⟨fun _ _ => hall.done vs hvs, fun e he => ?_⟩
    obtain ⟨hreason, v, hv, hnot⟩ := joinTexts_eq_error he
    obtain ⟨a, ha, hfa⟩ := exists_of_forall₂ (mapM_eq_ok_iff.1 hvs).flip hv
    exact ⟨item a, List.mem_map_of_mem ha, hreason ▸ htext a ha v hfa hnot⟩

/-- Two steps for the reasons of one item. -/
theorem Explained.bind_same {f : α → Except Failure β} (h : Explained why xs r)
    (hf : ∀ a, r = .ok a → Explained why xs (f a)) : Explained why xs (r >>= f) :=
  (h.bind hf).congr fun _ => by rw [List.mem_append, or_self]

theorem Explained.ifAny (as : List α) {r : Except Failure String} (h : Explained why xs r)
    (hnil : as = [] → xs = []) : Explained why xs (Grammar.ifAny as r) := by
  cases as with
  | nil =>
    rw [hnil rfl]
    exact explained_ok _
  | cons a as => exact h

end

/-! ## Failures of values -/

/-- What queries answer fails for no other reason than that it is not known, or that there is no
answer. -/
def Oracle.Mild (oracle : Oracle) : Prop :=
  ∀ id request e, oracle id request = .error e → e.reason = .unanswered ∨ e.reason = .fault

theorem Store.oracle_mild (s : Store) (known : KnownAnswers) : (s.oracle known).Mild := by
  intro id request e h
  unfold Store.oracle at h
  split at h
  · exact nomatch h
  · split at h
    · cases h
      exact .inl rfl
    · cases h
      exact .inr rfl

namespace Value

variable {v : Value} {e : Failure}

theorem items_reason (h : v.items = .error e) : e.reason = .fault := by
  cases v with
  | text _ | bytes _ | list _ | tuple _ | map _ => exact nomatch h
  | _ =>
    cases h
    rfl

theorem asText_reason (h : v.asText = .error e) : e.reason = .fault := by
  cases v with
  | text _ => exact nomatch h
  | _ =>
    cases h
    rfl

theorem length_reason (h : v.length = .error e) : e.reason = .fault := by
  unfold length at h
  cases hitems : v.items with
  | error e' =>
    rw [hitems] at h
    cases h
    exact items_reason hitems
  | ok items =>
    rw [hitems] at h
    exact nomatch h

private theorem elim_reason {α : Type} {x : Option α} {fault : ValueFault}
    (hfault : (Failure.value fault).reason = .fault)
    (h : x.elim (.error (.value fault)) .ok = (.error e : Except Failure α)) : e.reason = .fault := by
  cases x with
  | none =>
    cases h
    exact hfault
  | some a => exact nomatch h

private theorem elementAt_reason {elements : List Value} {place : Int}
    (h : elementAt elements place = .error e) : e.reason = .fault := by
  unfold elementAt at h
  generalize (if place < 0 then place + elements.length else place) = found at h
  dsimp only at h
  split at h
  · cases h
    rfl
  · exact elim_reason rfl h

theorem subscript_reason {place : Int} (h : v.subscript (.int place) = .error e) :
    e.reason = .fault := by
  cases v with
  | map entries =>
    unfold subscript at h
    dsimp only at h
    split at h
    · exact elim_reason rfl h
    · cases h
      rfl
  | text _ | bytes _ | list _ | tuple _ => exact elementAt_reason h
  | _ =>
    cases h
    rfl

theorem answerBy_reason {oracle : Oracle} (ho : oracle.Mild) {request : Request}
    (h : v.answerBy oracle request = .error e) : e.reason = .unanswered ∨ e.reason = .fault := by
  cases v with
  | object handle =>
    cases handle with
    | query id => exact ho id request e h
    | _ =>
      cases h
      exact .inr rfl
  | _ =>
    cases h
    exact .inr rfl

theorem replacedBy_reason {oracle : Oracle} (ho : oracle.Mild) {part replacement : String}
    (h : v.replacedBy oracle part replacement = .error e) :
    e.reason = .unanswered ∨ e.reason = .fault := by
  cases v with
  | text s => exact nomatch h
  | object handle =>
    cases handle with
    | query id => exact ho id _ e h
    | _ =>
      cases h
      exact .inr rfl
  | _ =>
    cases h
    exact .inr rfl

end Value

end FluentSql
