import Mathlib.Data.List.TakeWhile
import FluentSql.Proofs.Limiting

/-!
# Texts with a gap

What is compiled of a query is a text around the text of each of its values.
Seen from one value it is a frame: what stands before the value, and what stands
behind it.  Nothing in the frame depends on the value.

* `Frame` is a text with a gap, and `Gapped` says that a computation writes a
  value into the gap of one frame, whatever the value.
* `Frame.gapped`, `Gapped.bind` and `gapped_from` follow a computation, and
  `Gapped.around`, `Gapped.join`, `Gapped.conjoined` and `Gapped.spaced` put
  frames into frames.
* `Gapped.trim` needs a character before the gap that is not trimmed, and a value
  that does not end with a blank.
-/

namespace FluentSql

/-- A text with a gap. -/
structure Frame where
  /-- What stands before the gap. -/
  before : String
  /-- What stands behind it. -/
  after : String

/-- A text with a character that is no blank. -/
def Visible (text : String) : Prop :=
  ∃ c ∈ text.toList, Text.isBlank c = false

/-- The text with the gap filled. -/
def Frame.fill (frame : Frame) (text : String) : String :=
  frame.before ++ text ++ frame.after

/-- What is computed of a value that is written as some text is that text in a frame, and the frame
is the same for all values; or it fails for all of them alike.  If `solid` holds, what stands before
the gap is not all blank. -/
def Gapped {α : Type} (solid : Prop) (renders : α → String → Prop)
    (f : α → Except Failure String) : Prop :=
  ∃ frame : Except Failure Frame, (solid → ∀ fr, frame = .ok fr → Visible fr.before) ∧
    ∀ v text, renders v text → Closes text → f v = frame.map (·.fill text)

section

variable {a b text : String}

theorem Visible.append (h : Visible a) (b : String) : Visible (a ++ b) := by
  obtain ⟨c, hc, hblank⟩ := h
  exact ⟨c, by rw [String.toList_append]; exact List.mem_append_left _ hc, hblank⟩

theorem Visible.after (h : Visible b) (a : String) : Visible (a ++ b) := by
  obtain ⟨c, hc, hblank⟩ := h
  exact ⟨c, by rw [String.toList_append]; exact List.mem_append_right _ hc, hblank⟩

theorem Opens.solid (h : Opens a) : Visible a := by
  obtain ⟨c, rest, ha, hc⟩ := h
  exact ⟨c, by rw [ha]; exact List.mem_cons_self, hc⟩

theorem Visible.ne_empty (h : Visible a) : a ≠ "" := by
  obtain ⟨c, hc, _⟩ := h
  rintro rfl
  exact nomatch hc

/-- Blanks at the front are taken only from what stands before a character that is no blank. -/
theorem Visible.trimLeft_append (h : Visible a) (b : String) :
    Text.trimLeft (a ++ b) = Text.trimLeft a ++ b ∧ Visible (Text.trimLeft a) := by
  obtain ⟨c, hc, hblank⟩ := h
  have hne : Text.dropBlanks a.toList ≠ [] := by
    intro hnil
    have hall := List.dropWhile_eq_nil_iff.1 hnil c hc
    rw [hblank] at hall
    exact nomatch hall
  constructor
  · apply String.toList_inj.1
    rw [Text.trimLeft, String.toList_append, String.toList_ofList, String.toList_append,
      Text.trimLeft, String.toList_ofList, Text.dropBlanks, List.dropWhile_append]
    exact if_neg fun hempty => hne (List.isEmpty_iff.1 hempty)
  · refine ⟨(Text.dropBlanks a.toList).head hne, ?_, List.head_dropWhile_not Text.isBlank hne⟩
    rw [Text.trimLeft, String.toList_ofList]
    exact List.head_mem hne

/-- One of several fragments stands between the others. -/
theorem joinWith_around (separator : String) (xs ys : List String) :
    ∃ a b, ∀ text, joinWith separator (xs ++ text :: ys) = a ++ text ++ b := by
  have hbehind : ∃ b, ∀ text, joinWith separator (text :: ys) = text ++ b := by
    cases ys with
    | nil => exact ⟨"", fun text => String.append_empty.symm⟩
    | cons y ys => exact ⟨separator ++ joinWith separator (y :: ys), fun text =>
        String.append_assoc ..⟩
  obtain ⟨b, hb⟩ := hbehind
  cases xs with
  | nil => exact ⟨"", b, fun text => by rw [List.nil_append, hb, String.empty_append]⟩
  | cons x xs =>
    refine ⟨joinWith separator (x :: xs) ++ separator, b, fun text => ?_⟩
    rw [joinWith_append separator (List.cons_ne_nil x xs) (List.cons_ne_nil text ys), hb]
    simp only [String.append_assoc]

theorem spaced_around_text (xs ys : List String) :
    ∃ a b, ∀ text, text ≠ "" → spaced (xs ++ text :: ys) = a ++ text ++ b := by
  obtain ⟨a, b, hjoined⟩ := joinWith_around " " (xs.filter fun fragment => !fragment.isEmpty)
    (ys.filter fun fragment => !fragment.isEmpty)
  refine ⟨a, b, fun text hne => ?_⟩
  have hkept : (!text.isEmpty) = true := by
    rw [Bool.not_eq_true', Bool.eq_false_iff]
    exact fun hempty => hne (String.isEmpty_iff.1 hempty)
  have hfilter : (text :: ys).filter (fun fragment => !fragment.isEmpty) =
      text :: ys.filter fun fragment => !fragment.isEmpty := List.filter_cons_of_pos hkept
  rw [spaced, List.filter_append, hfilter, hjoined]

end

/-! ## Frames in frames -/

section

variable {α β : Type} {solid solid' : Prop} {renders : α → String → Prop}
variable {f f' : α → Except Failure String}

/-- A text between two others. -/
theorem gapped_between (a b : String) (hsolid : solid → Visible a)
    (h : ∀ v text, renders v text → f v = .ok (a ++ text ++ b)) : Gapped solid renders f :=
  ⟨.ok ⟨a, b⟩, fun hs _ hframe => Except.ok.inj hframe ▸ hsolid hs, fun v text hv _ => h v text hv⟩

/-- A failure that does not depend on the value. -/
theorem gapped_error (e : Failure) : Gapped solid renders fun _ => .error e :=
  ⟨.error e, fun _ _ hframe => (nomatch hframe), fun _ _ _ _ => rfl⟩

theorem Gapped.congr (h : Gapped solid renders f)
    (hsame : ∀ v text, renders v text → f' v = f v) : Gapped solid renders f' := by
  obtain ⟨frame, hframe, hf⟩ := h
  exact ⟨frame, hframe, fun v text hv hcloses => (hsame v text hv).trans (hf v text hv hcloses)⟩

/-- What is computed before, without the value, is a part of the frame. -/
theorem gapped_from (x : Except Failure β) {f : β → α → Except Failure String}
    (h : ∀ b, x = .ok b → Gapped solid renders (f b)) :
    Gapped solid renders fun v => x >>= fun b => f b v := by
  cases x with
  | error e => exact gapped_error e
  | ok b => exact h b rfl

/-- What is computed of a filled frame. -/
theorem Gapped.bind {k : String → Except Failure String} (h : Gapped solid renders f)
    (hk : ∀ fr : Frame, (solid → Visible fr.before) →
      Gapped solid' (fun v text : String => v = text) fun v => k (fr.fill v)) :
    Gapped solid' renders fun v => f v >>= k := by
  obtain ⟨frame, hframe, hf⟩ := h
  cases frame with
  | error e =>
    refine ⟨.error e, fun _ _ hframe => (nomatch hframe), fun v text hv hcloses => ?_⟩
    show f v >>= k = _
    rw [hf v text hv hcloses]
    rfl
  | ok fr =>
    obtain ⟨frame', hframe', hk⟩ := hk fr fun hs => hframe hs fr rfl
    refine ⟨frame', hframe', fun v text hv hcloses => ?_⟩
    show f v >>= k = _
    rw [hf v text hv hcloses]
    exact hk text text rfl hcloses

/-- What is written around a filled frame makes it wider. -/
theorem Frame.gapped {k : String → String} (fr : Frame) (a b : String)
    (hsolid : solid → Visible (a ++ fr.before)) (hk : ∀ text, k text = a ++ fr.fill text ++ b) :
    Gapped solid (fun v text : String => v = text) fun v => pure (k v) := by
  refine gapped_between (a ++ fr.before) (fr.after ++ b) hsolid ?_
  rintro v text rfl
  show Except.ok (k _) = _
  rw [hk, Frame.fill]
  simp only [String.append_assoc]

theorem Gapped.around {k : String → String} (h : Gapped solid renders f) (a b : String)
    (hsolid : solid' → Visible a ∨ solid) (hk : ∀ text, k text = a ++ text ++ b) :
    Gapped solid' renders fun v => f v >>= fun text => pure (k text) :=
  h.bind fun fr hfr => fr.gapped a b
    (fun hs => (hsolid hs).elim (·.append _) fun hs => (hfr hs).after a) fun _ => hk _

/-- The same where the text is only mapped. -/
theorem Gapped.map {k : String → String} (h : Gapped solid renders f) (a b : String)
    (hsolid : solid' → Visible a ∨ solid) (hk : ∀ text, k text = a ++ text ++ b) :
    Gapped solid' renders fun v => (f v).map k :=
  (h.around a b hsolid hk).congr fun v _ _ => by cases f v <;> rfl

/-- One of several texts that are joined. -/
theorem Gapped.join {F : β → Except Failure String} {x : α → β}
    (h : Gapped solid renders fun v => F (x v)) (separator : String) (before after : List β) :
    Gapped solid renders fun v => do
      return joinWith separator (← (before ++ x v :: after).mapM F) := by
  have hsplit : ∀ v, (do return joinWith separator (← (before ++ x v :: after).mapM F) :
      Except Failure String) = before.mapM F >>= fun xs => F (x v) >>= fun text =>
        after.mapM F >>= fun ys => pure (joinWith separator (xs ++ text :: ys)) := by
    intro v
    rw [List.mapM_append, List.mapM_cons]
    simp only [bind_assoc, pure_bind]
  refine Gapped.congr (gapped_from _ fun xs _ => h.bind fun fr hfr => gapped_from _ fun ys _ => ?_)
    fun v _ _ => hsplit v
  obtain ⟨a, b, hjoined⟩ := joinWith_around separator xs ys
  exact fr.gapped a b (fun hs => (hfr hs).after a) fun _ => hjoined _

/-- The same where the texts are values. -/
theorem Gapped.texts {F : β → Except Failure Value} {x : α → β} (h : Gapped solid renders f)
    (hF : ∀ v text, renders v text → F (x v) = (f v).map .text) (separator : String)
    (before after : List β) :
    Gapped solid renders fun v =>
      (before ++ x v :: after).mapM F >>= joinTexts separator := by
  have hsplit : ∀ v text, renders v text →
      ((before ++ x v :: after).mapM F >>= joinTexts separator) =
        before.mapM F >>= fun xs => f v >>= fun text => after.mapM F >>= fun ys =>
          xs.mapM Value.asText >>= fun xs => ys.mapM Value.asText >>= fun ys =>
            pure (joinWith separator (xs ++ text :: ys)) := by
    intro v text hv
    rw [List.mapM_append, List.mapM_cons, hF v text hv]
    cases hbefore : before.mapM F with
    | error e => rfl
    | ok xs =>
      cases hv : f v with
      | error e => rfl
      | ok t =>
        cases hafter : after.mapM F with
        | error e => rfl
        | ok ys =>
          show joinTexts separator (xs ++ .text t :: ys) = _
          unfold joinTexts
          rw [List.mapM_append, List.mapM_cons]
          simp only [bind_assoc, pure_bind]
          rfl
  refine Gapped.congr (gapped_from _ fun _ _ => h.bind fun fr hfr => gapped_from _ fun _ _ =>
    gapped_from _ fun xs _ => gapped_from _ fun ys _ => ?_) hsplit
  obtain ⟨a, b, hjoined⟩ := joinWith_around separator xs ys
  exact fr.gapped a b (fun hs => (hfr hs).after a) fun _ => hjoined _

/-- One of several conditions with their joining words, of which the first is dropped. -/
theorem Gapped.conjoined (word : β → String) {F : β → Except Failure String} {x : α → β}
    {w : String} (hword : ∀ v, word (x v) = w) (h : Gapped solid renders fun v => F (x v))
    (before after : List β) :
    Gapped solid renders fun v => do
      let fragments ← (before ++ x v :: after).mapM fun c => do return word c ++ " " ++ (← F c)
      return dropConjunction (joinWith " " fragments) := by
  have hsplit : ∀ v, (do
      let fragments ← (before ++ x v :: after).mapM fun c => do return word c ++ " " ++ (← F c)
      return dropConjunction (joinWith " " fragments) : Except Failure String) =
        (before.mapM fun c => do return word c ++ " " ++ (← F c)) >>= fun xs =>
          F (x v) >>= fun text => (after.mapM fun c => do return word c ++ " " ++ (← F c)) >>=
            fun ys => pure (dropConjunction (joinWith " " (xs ++ (w ++ " " ++ text) :: ys))) := by
    intro v
    rw [List.mapM_append, List.mapM_cons, hword]
    simp only [bind_assoc, pure_bind]
  refine Gapped.congr (gapped_from _ fun xs _ => h.bind fun fr hfr => gapped_from _ fun ys _ => ?_)
    fun v _ _ => hsplit v
  obtain ⟨a, b, hjoined⟩ := joinWith_around " " xs ys
  obtain ⟨front, hfront⟩ : ∃ front, ∀ text, dropConjunction (a ++ w ++ " " ++ text) =
      front ++ text := ⟨_, dropConjunction_append (a ++ w)⟩
  refine fr.gapped front b (fun hs => (hfr hs).after front) fun text => ?_
  have htext : a ++ (w ++ " " ++ fr.fill text) ++ b = a ++ w ++ " " ++ (fr.fill text ++ b) := by
    simp only [String.append_assoc]
  rw [hjoined, htext, hfront, String.append_assoc]

/-- One of several fragments of which the empty ones are left out. -/
theorem Gapped.spaced (h : Gapped True renders f) (before after : List (Except Failure String)) :
    Gapped True renders fun v => do
      return FluentSql.spaced (← (before ++ f v :: after).mapM id) := by
  have hsplit : ∀ v, (do return FluentSql.spaced (← (before ++ f v :: after).mapM id) :
      Except Failure String) = before.mapM id >>= fun xs => f v >>= fun text =>
        after.mapM id >>= fun ys => pure (FluentSql.spaced (xs ++ text :: ys)) := by
    intro v
    rw [List.mapM_append, List.mapM_cons]
    simp only [bind_assoc, pure_bind, id_eq]
  refine Gapped.congr (gapped_from _ fun xs _ => h.bind fun fr hfr => gapped_from _ fun ys _ => ?_)
    fun v _ _ => hsplit v
  obtain ⟨a, b, hspaced⟩ := spaced_around_text xs ys
  refine fr.gapped a b (fun _ => (hfr trivial).after a) fun text => hspaced _ ?_
  exact (((hfr trivial).append text).append fr.after).ne_empty

/-- A frame with a character before the gap is trimmed around the gap. -/
theorem Frame.trim_fill {fr : Frame} (hfr : Visible fr.before) {text : String} (h : Closes text) :
    Text.trim (fr.fill text) = Text.trimLeft fr.before ++ text ++ Text.trimRight fr.after := by
  rw [trim_eq, fill, String.append_assoc, (hfr.trimLeft_append _).1, ← String.append_assoc,
    (h.after _).trimRight_append]

theorem Frame.trimRight_fill (fr : Frame) {text : String} (h : Closes text) :
    Text.trimRight (fr.fill text) = fr.before ++ text ++ Text.trimRight fr.after := by
  rw [fill, (h.after _).trimRight_append]

theorem Gapped.trim (h : Gapped True renders f) :
    Gapped True renders fun v => f v >>= fun text => pure (Text.trim text) := by
  refine h.bind fun fr hfr => ?_
  refine ⟨.ok ⟨Text.trimLeft fr.before, Text.trimRight fr.after⟩, ?_, ?_⟩
  · intro _ _ hframe
    exact Except.ok.inj hframe ▸ ((hfr trivial).trimLeft_append "").2
  · rintro v _ rfl hcloses
    exact congrArg Except.ok (Frame.trim_fill (hfr trivial) hcloses)

end

end FluentSql
