import Stencil.Engine.Render
import Stencil.Proofs.Marks

/-!
# Filling placeholders

A message falls apart into placeholders and the text between them in one way only.  That is said
here by the places at which a placeholder stands in the message, without the scan that finds them,
and then filling a message is shown to fill each placeholder of these parts by itself: what comes in
for one of them is not looked at again.

* `PlaceholderAt` — the places of a message at which a placeholder stands;
* `MessagePart`, `Divided` — the parts of a message, divided in the right places;
* `grouped` — characters side by side make one text;
* `Divided.placeholders_eq`, `divided_grouped` — the scan finds the parts of a divided message, and
  every message is divided;
* `fillMessage_divided` — the main theorem.
-/

namespace Stencil.Template

open Stencil.Text Stencil.Routine

/-! ### Placeholders -/

/-- What can stand in the braces of a placeholder. -/
def IsWordText (word : String) : Prop := word ≠ "" ∧ ∀ c ∈ word.toList, isWord c = true

/-- At this place of a text a placeholder stands. -/
def PlaceholderAt (cs : List Char) (i : Nat) : Prop :=
  ∃ word, IsWordText word ∧ (writtenPlaceholder word).toList <+: cs.drop i

/-- A placeholder stands at the front of a text, and this follows it. -/
def StartsPlaceholder (cs : List Char) (word : String) (rest : List Char) : Prop :=
  IsWordText word ∧ cs = (writtenPlaceholder word).toList ++ rest

theorem toList_writtenPlaceholder (word : String) :
    (writtenPlaceholder word).toList = '\x7b' :: (word.toList ++ ['\x7d']) := by
  simp [writtenPlaceholder]

theorem placeholder?_eq_some_iff {cs rest : List Char} {word : String} :
    placeholder? cs = some (word, rest) ↔ StartsPlaceholder cs word rest := by
  rw [StartsPlaceholder, toList_writtenPlaceholder]
  constructor
  · intro h
    unfold placeholder? at h
    split at h
    · rename_i cs
      dsimp only at h
      split at h
      · rename_i rest' hdrop
        split at h
        · cases h
        · rename_i hword
          cases h
          obtain ⟨hcs, hall, -⟩ := span_eq_iff.mp ⟨rfl, hdrop⟩
          refine ⟨⟨fun hempty => hword ?_, by simpa using hall⟩, ?_⟩
          · rw [List.isEmpty_iff]
            simpa using congrArg String.toList hempty
          · simpa using hcs
      · cases h
    · cases h
  · rintro ⟨⟨hne, hall⟩, rfl⟩
    have hspan : (word.toList ++ '\x7d' :: rest).takeWhile isWord = word.toList
        ∧ (word.toList ++ '\x7d' :: rest).dropWhile isWord = '\x7d' :: rest :=
      span_eq_iff.mpr ⟨rfl, hall, by rintro _ ⟨⟩; decide⟩
    obtain ⟨htake, hdrop⟩ := hspan
    have hword : ¬ word.toList.isEmpty = true := by
      rw [List.isEmpty_iff, String.toList_eq_nil_iff]
      exact hne
    simp only [List.cons_append, List.append_assoc, List.nil_append, placeholder?]
    rw [hdrop, htake, String.ofList_toList]
    exact if_neg hword

theorem length_lt_of_startsPlaceholder {cs rest : List Char} {word : String}
    (h : StartsPlaceholder cs word rest) : rest.length < cs.length := by
  rw [h.2, toList_writtenPlaceholder]
  simp only [List.cons_append, List.append_assoc, List.length_cons, List.length_append]
  omega

/-! ### The parts of a message -/

/-- A part of a message. -/
inductive MessagePart where
  /-- Text between placeholders. -/
  | text (cs : List Char)
  /-- A placeholder with this word. -/
  | placeholder (word : String)
  deriving DecidableEq

namespace MessagePart

/-- How a part stands in the message. -/
def written : MessagePart → List Char
  | .text cs => cs
  | .placeholder word => (writtenPlaceholder word).toList

/-- The characters of a text, or a placeholder, as a scan finds them. -/
def scanned : MessagePart → List (Char ⊕ String)
  | .text cs => cs.map .inl
  | .placeholder word => [.inr word]

/-- The text that a part becomes, if what it shows comes to an end: text stays, a placeholder is
filled with what the member of its name shows, and without such a member it stays. -/
def filled (heap : Heap) (members : Roster Value) : MessagePart → Option String
  | .text cs => some (String.ofList cs)
  | .placeholder word =>
    match members.get? word with
    | some v => heap.display v
    | none => some (writtenPlaceholder word)

end MessagePart

/-- The message that parts make up. -/
def writtenMessage (parts : List MessagePart) : List Char := parts.flatMap MessagePart.written

/-- The parts are divided in the right places: in texts, no two of which stand side by side, no
placeholder begins. -/
inductive Divided : List MessagePart → Prop where
  | nil : Divided []
  | placeholder {word : String} {parts : List MessagePart} (hword : IsWordText word)
      (hrest : Divided parts) : Divided (.placeholder word :: parts)
  | text {cs : List Char} {parts : List MessagePart} (hne : cs ≠ [])
      (hapart : ∀ cs', parts.head? ≠ some (.text cs'))
      (hnone : ∀ i < cs.length, ¬ PlaceholderAt (cs ++ writtenMessage parts) i)
      (hrest : Divided parts) : Divided (.text cs :: parts)

/-- The scan of a text cuts it into its placeholders and the characters between them. -/
theorem placeholders_eq_iff {message : String} {found : List (Char ⊕ String)} :
    placeholders message = found ↔ Cuts StartsPlaceholder message.toList found :=
  scan_eq_iff (fun _ _ _ => placeholder?_eq_some_iff) fun _ _ _ => length_lt_of_startsPlaceholder

/-- Characters without a placeholder among them are cut one by one. -/
theorem cuts_chars {cs rest : List Char} {found : List (Char ⊕ String)}
    (hnone : ∀ i < cs.length, ¬ PlaceholderAt (cs ++ rest) i)
    (h : Cuts StartsPlaceholder rest found) :
    Cuts StartsPlaceholder (cs ++ rest) (cs.map .inl ++ found) := by
  induction cs with
  | nil => exact h
  | cons c cs ih =>
    refine .char (fun word behind hstarts => ?_) (ih fun i hi => ?_)
    · exact hnone 0 (Nat.succ_pos _) ⟨word, hstarts.1, behind, hstarts.2.symm⟩
    · exact hnone (i + 1) (Nat.succ_lt_succ hi)

/-- **The scan finds the parts of a divided message.** -/
theorem Divided.placeholders_eq {parts : List MessagePart} (h : Divided parts) {message : String}
    (hmessage : writtenMessage parts = message.toList) :
    placeholders message = parts.flatMap MessagePart.scanned := by
  refine placeholders_eq_iff.mpr (hmessage ▸ ?_)
  clear hmessage
  induction h with
  | nil => exact .nil
  | placeholder hword _ ih => exact .mark ⟨hword, rfl⟩ ih
  | text _ _ hnone _ ih => exact cuts_chars hnone ih

/-! ### Grouping characters -/

/-- One more character in front of parts. -/
def consChar (c : Char) : List MessagePart → List MessagePart
  | .text cs :: parts => .text (c :: cs) :: parts
  | parts => .text [c] :: parts

/-- Placeholders and characters, where characters side by side make one text. -/
def grouped : List (Char ⊕ String) → List MessagePart
  | [] => []
  | .inl c :: found => consChar c (grouped found)
  | .inr word :: found => .placeholder word :: grouped found

theorem writtenMessage_consChar (c : Char) (parts : List MessagePart) :
    writtenMessage (consChar c parts) = c :: writtenMessage parts := by
  unfold consChar
  split <;> rfl

/-- A character at which no placeholder begins leaves the parts divided. -/
theorem Divided.consChar {c : Char} {parts : List MessagePart} (h : Divided parts)
    (hnone : ¬ PlaceholderAt (c :: writtenMessage parts) 0) : Divided (consChar c parts) := by
  have alone (hapart : ∀ cs', parts.head? ≠ some (.text cs')) :
      Divided (.text [c] :: parts) := by
    refine .text (List.cons_ne_nil c []) hapart (fun i hi => ?_) h
    obtain rfl : i = 0 := by simpa using hi
    exact hnone
  cases h with
  | nil => exact alone nofun
  | placeholder => exact alone nofun
  | @text cs parts hne hapart hothers hrest =>
    refine .text (List.cons_ne_nil c cs) hapart (fun i hi => ?_) hrest
    cases i with
    | zero => exact hnone
    | succ i => exact hothers i (Nat.lt_of_succ_lt_succ hi)

/-- **Every message is divided**: what a scan cuts it into makes divided parts. -/
theorem divided_grouped {cs : List Char} {found : List (Char ⊕ String)}
    (h : Cuts StartsPlaceholder cs found) :
    Divided (grouped found) ∧ writtenMessage (grouped found) = cs := by
  induction h with
  | nil => exact ⟨.nil, rfl⟩
  | mark hstarts _ ih =>
    refine ⟨.placeholder hstarts.1 ih.1, ?_⟩
    rw [hstarts.2]
    exact congrArg (_ ++ ·) ih.2
  | @char c cs found hnone _ ih =>
    obtain ⟨hdivided, hwritten⟩ := ih
    refine ⟨hdivided.consChar ?_, (writtenMessage_consChar c _).trans (congrArg (c :: ·) hwritten)⟩
    rintro ⟨word, hword, behind, hbehind⟩
    rw [hwritten] at hbehind
    exact hnone word behind ⟨hword, hbehind.symm⟩

theorem grouped_chars {cs : List Char} (hne : cs ≠ []) {found : List (Char ⊕ String)}
    (hapart : ∀ cs', (grouped found).head? ≠ some (.text cs')) :
    grouped (cs.map .inl ++ found) = .text cs :: grouped found := by
  induction cs with
  | nil => exact absurd rfl hne
  | cons c cs ih =>
    rw [List.map_cons, List.cons_append, grouped]
    cases cs with
    | nil =>
      rw [List.map_nil, List.nil_append]
      unfold consChar
      split
      · rename_i cs' parts hfound
        exact absurd (congrArg List.head? hfound) (hapart cs')
      · rfl
    | cons d cs =>
      rw [ih (List.cons_ne_nil d cs)]
      rfl

/-- Divided parts are found again by grouping. -/
theorem Divided.grouped_scanned {parts : List MessagePart} (h : Divided parts) :
    grouped (parts.flatMap MessagePart.scanned) = parts := by
  induction h with
  | nil => rfl
  | @placeholder word parts hword hrest ih => exact congrArg (MessagePart.placeholder word :: ·) ih
  | text hne hapart _ _ ih =>
    rw [List.flatMap_cons, MessagePart.scanned, grouped_chars hne (ih.symm ▸ hapart), ih]

/-! ### Filling -/

/-- The text that a character or a placeholder becomes, if it comes to an end. -/
def filledMark (heap : Heap) (members : Roster Value) : Char ⊕ String → Option String
  | .inl c => some (String.singleton c)
  | .inr word => MessagePart.filled heap members (.placeholder word)

/-- Filling what was found in a message only reads the heap. -/
theorem placeholderText_eq (members : Roster Value) (mark : Char ⊕ String) (store : Store) :
    Setting.placeholderText members mark store
      = Run.finite (filledMark store.heap members mark) store := by
  cases mark with
  | inl c => rfl
  | inr word =>
    rw [Setting.placeholderText, filledMark, MessagePart.filled]
    cases members.get? word with
    | none => rfl
    | some v =>
      have htext : Run.textOf v store = Run.finite (store.heap.display v) store := rfl
      dsimp only
      cases hshown : store.heap.display v with
      | none => exact run_bind_error (htext.trans (by rw [hshown]; rfl))
      | some text => exact (run_bind_ok (htext.trans (by rw [hshown]; rfl))).trans rfl

/-- Runs in a row that only compute something come to all of it, if it comes to an end. -/
theorem mapM_finite {α β : Type} {f : α → Run β} {g : α → Option β} {store : Store}
    (h : ∀ a, f a store = Run.finite (g a) store) (as : List α) :
    as.mapM f store = Run.finite (as.mapM g) store := by
  induction as with
  | nil => rfl
  | cons a as ih =>
    rw [List.mapM_cons, List.mapM_cons]
    cases ha : g a with
    | none => exact run_bind_error ((h a).trans (by rw [ha]; rfl))
    | some b =>
      refine (run_bind_ok ((h a).trans (by rw [ha]; rfl))).trans ?_
      cases has : as.mapM g with
      | none => exact run_bind_error (ih.trans (by rw [has]; rfl))
      | some bs => exact run_bind_ok (ih.trans (by rw [has]; rfl))

/-- The marks of a part become the text of the part. -/
theorem mapM_filledMark (heap : Heap) (members : Roster Value) (part : MessagePart) :
    (part.scanned.mapM (filledMark heap members)).map String.join
      = part.filled heap members := by
  cases part with
  | placeholder word =>
    rw [MessagePart.scanned, List.mapM_cons, List.mapM_nil, filledMark]
    cases MessagePart.filled heap members (.placeholder word) with
    | none => rfl
    | some text => simp
  | text cs =>
    rw [MessagePart.scanned, MessagePart.filled]
    induction cs with
    | nil => rfl
    | cons c cs ih =>
      obtain ⟨texts, htexts, hjoin⟩ := Option.map_eq_some_iff.mp ih
      have hmore : ((c :: cs).map .inl).mapM (filledMark heap members)
          = some (String.singleton c :: texts) := by
        rw [List.map_cons, List.mapM_cons, htexts]
        rfl
      rw [hmore, Option.map_some, String.join_cons, hjoin]
      exact congrArg some (String.toList_injective (by simp))

/-- The marks of parts in a row become the texts of the parts. -/
theorem mapM_flatMap_filledMark (heap : Heap) (members : Roster Value)
    (parts : List MessagePart) :
    ((parts.flatMap MessagePart.scanned).mapM (filledMark heap members)).map String.join
      = (parts.mapM (MessagePart.filled heap members)).map String.join := by
  induction parts with
  | nil => rfl
  | cons part parts ih =>
    rw [List.flatMap_cons, List.mapM_append, List.mapM_cons, ← mapM_filledMark]
    cases part.scanned.mapM (filledMark heap members) with
    | none => rfl
    | some texts =>
      cases hothers : (parts.flatMap MessagePart.scanned).mapM (filledMark heap members) with
      | none =>
        rw [hothers] at ih
        cases hparts : parts.mapM (MessagePart.filled heap members) with
        | none => rfl
        | some others =>
          rw [hparts] at ih
          cases ih
      | some others =>
        rw [hothers] at ih
        obtain ⟨filled, hfilled, hjoin⟩ := Option.map_eq_some_iff.mp ih.symm
        rw [hfilled]
        simp [String.join_append, hjoin]

/-- **Placeholders are filled in a single pass.**  Every message is divided in exactly one way into
its placeholders and the text between them.  Filled from the members of an object it becomes what
these parts become, one after the other: text stays, a placeholder becomes what the member of its
name shows, or stays if there is none.  Nothing is filled in what came in. -/
theorem fillMessage_divided (message : String) :
    ∃ parts, (∀ parts', Divided parts' ∧ writtenMessage parts' = message.toList ↔ parts' = parts)
      ∧ ∀ (object : Nat) (store : Store),
        Setting.fillMessage message (some (.object object)) store
          = Run.finite ((parts.mapM
              (MessagePart.filled store.heap (store.heap.members object))).map String.join)
            store := by
  have hcuts := placeholders_eq_iff.mp (Eq.refl (placeholders message))
  obtain ⟨hdivided, hwritten⟩ := divided_grouped hcuts
  have hfound := hdivided.placeholders_eq hwritten
  refine ⟨grouped (placeholders message), fun parts' => ⟨fun ⟨h, hmessage⟩ => ?_, ?_⟩,
    fun object store => ?_⟩
  · rw [h.placeholders_eq hmessage, h.grouped_scanned]
  · rintro rfl
    exact ⟨hdivided, hwritten⟩
  · have hheap : Run.heap store = .ok store.heap store := rfl
    have hmarks := mapM_finite (placeholderText_eq (store.heap.members object) · store)
      (placeholders message)
    rw [← mapM_flatMap_filledMark, ← hfound, Setting.fillMessage]
    refine (run_bind_ok hheap).trans ?_
    cases htexts : (placeholders message).mapM
        (filledMark store.heap (store.heap.members object)) with
    | none => exact run_bind_error (hmarks.trans (by rw [htexts]; rfl))
    | some texts => exact run_bind_ok (hmarks.trans (by rw [htexts]; rfl))

/-- Of nested braces the inner ones hold the placeholder. -/
example : grouped (placeholders "\x7b\x7ba\x7d b\x7d")
    = [.text ['\x7b'], .placeholder "a", .text [' ', 'b', '\x7d']] := by decide +kernel

end Stencil.Template
