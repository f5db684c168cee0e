import Stencil.Proofs.Marks
import Stencil.Text.Escape

/-!
# Escaping is safe and loses nothing

An escaped text holds none of the characters that markup is made of, except for the `&` in front of
each entity, and replacing its entities from left to right gives back the text that was escaped.
Every text of that kind is an escaped text, so the escaped texts are exactly the safe ones, and each
of them was escaped from one text only.

* `entities`, `entity?_eq_some_iff` — the entities, and the one at the front of a text;
* `unescape` — a text with its entities replaced from left to right;
* `IsSafe` — no markup, and nothing that looks like an entity without being one;
* `isSafe_escapeChars`, `unescapeChars_escapeChars`, `escapeChars_unescapeChars` — safety, and both
  round trips;
* `escape_lossless` — the main theorem.
-/

namespace Stencil.Text

/-! ### Entities -/

/-- The entities, each with the character that it stands for. -/
def entities : List (List Char × Char) :=
  [(['&', 'a', 'm', 'p', ';'], '&'), (['&', 'l', 't', ';'], '<'), (['&', 'g', 't', ';'], '>'),
    (['&', 'q', 'u', 'o', 't', ';'], '"'), (['&', '#', '3', '9', ';'], '\'')]

/-- The entity at the front of a text: the character it stands for, and what follows it. -/
def entity? (cs : List Char) : Option (Char × List Char) :=
  entities.findSome? fun entity => (stripFront entity.1 cs).map fun rest => (entity.2, rest)

/-- The characters of a text with its entities replaced from left to right. -/
def unescapeChars (cs : List Char) : List Char := replaceMarks entity? (fun c => [c]) cs

/-- A text with its entities replaced from left to right. -/
def unescape (s : String) : String := String.ofList (unescapeChars s.toList)

/-- The characters that have an entity. -/
def specialChars : List Char := ['&', '<', '>', '"', '\'']

/-- A character that has an entity is escaped to it. -/
theorem entity_of_special {c : Char} (h : c ∈ specialChars) : (escapeChar c, c) ∈ entities := by
  rw [specialChars] at h
  simp only [List.mem_cons, List.not_mem_nil, or_false] at h
  rcases h with rfl | rfl | rfl | rfl | rfl <;> decide

/-- Any other character stays as it is. -/
theorem escapeChar_of_plain {c : Char} (h : c ∉ specialChars) : escapeChar c = [c] := by
  unfold escapeChar
  split
  case h_6 => rfl
  all_goals exact absurd (by decide) h

/-- Each character has at most one entity, which is how it is escaped. -/
theorem escapeChar_of_entity {e : List Char} {c : Char} (h : (e, c) ∈ entities) :
    escapeChar c = e := by
  have hall : ∀ entity ∈ entities, escapeChar entity.2 = entity.1 := by decide
  exact hall _ h

/-- In an entity the `&` stands in front, and no other character of it is special. -/
theorem entity_shape {e : List Char} {c : Char} (h : (e, c) ∈ entities) :
    ∃ name, e = '&' :: name ∧ ∀ d ∈ name, d ∉ specialChars := by
  have hall : ∀ entity ∈ entities, entity.1 = '&' :: entity.1.tail
      ∧ entity.1.tail.all (· ∉ specialChars) = true := by decide
  obtain ⟨he, hname⟩ := hall _ h
  exact ⟨e.tail, he, fun d hd => of_decide_eq_true (List.all_eq_true.mp hname d hd)⟩

/-- No text begins with two entities. -/
theorem entity?_eq_some_iff {cs rest : List Char} {c : Char} :
    entity? cs = some (c, rest) ↔ ∃ e, (e, c) ∈ entities ∧ cs = e ++ rest := by
  constructor
  · intro h
    obtain ⟨⟨e, d⟩, hmem, hstrip⟩ := List.exists_of_findSome?_eq_some h
    obtain ⟨rest', hrest, heq⟩ := Option.map_eq_some_iff.mp hstrip
    cases heq
    exact ⟨e, hmem, eq_of_stripFront hrest⟩
  · rintro ⟨e, hmem, rfl⟩
    simp only [entities, List.mem_cons, Prod.mk.injEq, List.not_mem_nil, or_false] at hmem
    rcases hmem with ⟨rfl, rfl⟩ | ⟨rfl, rfl⟩ | ⟨rfl, rfl⟩ | ⟨rfl, rfl⟩ | ⟨rfl, rfl⟩ <;> rfl

/-- An entity takes characters. -/
theorem length_lt_of_entity? (cs : List Char) (c : Char) (rest : List Char)
    (h : entity? cs = some (c, rest)) : rest.length < cs.length := by
  obtain ⟨e, hmem, rfl⟩ := entity?_eq_some_iff.mp h
  obtain ⟨name, rfl, -⟩ := entity_shape hmem
  simp only [List.length_append, List.length_cons]
  omega

theorem unescapeChars_entity {e : List Char} {c : Char} (h : (e, c) ∈ entities) (rest : List Char) :
    unescapeChars (e ++ rest) = c :: unescapeChars rest :=
  replaceMarks_of_some length_lt_of_entity? (entity?_eq_some_iff.mpr ⟨e, h, rfl⟩) _

/-- What does not begin with `&` begins with no entity. -/
theorem unescapeChars_cons {c : Char} (hc : c ≠ '&') (rest : List Char) :
    unescapeChars (c :: rest) = c :: unescapeChars rest := by
  refine replaceMarks_cons_of_none ?_ _
  rw [Option.eq_none_iff_forall_ne_some]
  rintro ⟨d, behind⟩ h
  obtain ⟨e, hmem, heq⟩ := entity?_eq_some_iff.mp h
  obtain ⟨name, rfl, -⟩ := entity_shape hmem
  exact hc (List.cons.inj heq).1

/-! ### Safe texts -/

/-- A text that is no markup, and in which each `&` begins an entity. -/
structure IsSafe (cs : List Char) : Prop where
  /-- No tag begins or ends in it, and no quoted value. -/
  noMarkup : ∀ c ∈ cs, c ∉ ['<', '>', '"', '\'']
  /-- From each `&` on, it goes on with an entity. -/
  beginsEntity : ∀ front rest, cs = front ++ '&' :: rest →
    ∃ e c, (e, c) ∈ entities ∧ e <+: '&' :: rest

namespace IsSafe

theorem nil : IsSafe [] where
  noMarkup := nofun
  beginsEntity front rest h := by simp at h

/-- What stands behind a part of a safe text is safe. -/
theorem behind (cs : List Char) {ds : List Char} (h : IsSafe (cs ++ ds)) : IsSafe ds where
  noMarkup c hc := h.noMarkup c (List.mem_append_right cs hc)
  beginsEntity front rest heq :=
    h.beginsEntity (cs ++ front) rest (by rw [heq, List.append_assoc])

/-- A character that is not special in front of a safe text. -/
theorem cons {c : Char} {cs : List Char} (h : IsSafe cs) (hc : c ∉ specialChars) :
    IsSafe (c :: cs) where
  noMarkup d hd := by
    rcases List.mem_cons.mp hd with rfl | hd
    · exact fun hmem => hc (List.mem_cons_of_mem _ hmem)
    · exact h.noMarkup d hd
  beginsEntity front rest heq := by
    cases front with
    | nil =>
      obtain ⟨rfl, -⟩ := List.cons.inj heq
      exact absurd List.mem_cons_self hc
    | cons d front => exact h.beginsEntity front rest (List.cons.inj heq).2

/-- Characters that are not special in front of a safe text. -/
theorem append {cs ds : List Char} (h : IsSafe ds)
    (hcs : ∀ c ∈ cs, c ∉ specialChars) : IsSafe (cs ++ ds) := by
  induction cs with
  | nil => exact h
  | cons c cs ih =>
    obtain ⟨hc, hcs⟩ := List.forall_mem_cons.mp hcs
    exact (ih hcs).cons hc

/-- An entity in front of a safe text. -/
theorem entity {e cs : List Char} {c : Char} (h : IsSafe cs) (he : (e, c) ∈ entities) :
    IsSafe (e ++ cs) := by
  obtain ⟨name, rfl, hname⟩ := entity_shape he
  have hbehind := h.append hname
  exact {
    noMarkup := by
      intro d hd
      rcases List.mem_cons.mp hd with rfl | hd
      · decide
      · exact hbehind.noMarkup d hd
    beginsEntity := by
      intro front rest heq
      cases front with
      | nil =>
        rw [List.nil_append] at heq
        exact ⟨_, c, he, cs, heq⟩
      | cons d front => exact hbehind.beginsEntity front rest (List.cons.inj heq).2 }

end IsSafe

/-- An escaped text is safe. -/
theorem isSafe_escapeChars (cs : List Char) : IsSafe (escapeChars cs) := by
  induction cs with
  | nil => exact .nil
  | cons c cs ih =>
    rw [escapeChars_cons]
    by_cases hc : c ∈ specialChars
    · exact ih.entity (entity_of_special hc)
    · rw [escapeChar_of_plain hc]
      exact ih.cons hc

/-- Escaping is undone. -/
theorem unescapeChars_escapeChars (cs : List Char) : unescapeChars (escapeChars cs) = cs := by
  induction cs with
  | nil => rfl
  | cons c cs ih =>
    rw [escapeChars_cons]
    by_cases hc : c ∈ specialChars
    · rw [unescapeChars_entity (entity_of_special hc), ih]
    · have hamp : c ≠ '&' := fun heq => hc (heq ▸ List.mem_cons_self)
      rw [escapeChar_of_plain hc, List.singleton_append, unescapeChars_cons hamp, ih]

/-- A safe text is what its characters are escaped to. -/
theorem escapeChars_unescapeChars : (cs : List Char) → IsSafe cs →
    escapeChars (unescapeChars cs) = cs
  | [], _ => rfl
  | c :: cs, h => by
    by_cases hc : c = '&'
    · subst hc
      obtain ⟨e, d, he, rest, heq⟩ := h.beginsEntity [] cs rfl
      have hlength := length_lt_of_entity? _ d rest (entity?_eq_some_iff.mpr ⟨e, he, heq.symm⟩)
      rw [← heq] at h ⊢
      rw [unescapeChars_entity he, escapeChars_cons, escapeChar_of_entity he,
        escapeChars_unescapeChars rest (h.behind e)]
    · have hplain : c ∉ specialChars := fun hmem =>
        (List.mem_cons.mp hmem).elim hc (h.noMarkup c List.mem_cons_self)
      rw [unescapeChars_cons hc, escapeChars_cons, escapeChar_of_plain hplain,
        escapeChars_unescapeChars cs (h.behind [c])]
      rfl
termination_by cs => cs.length
decreasing_by
  · exact hlength
  · exact Nat.lt_succ_self cs.length

/-! ### Texts -/

/-- **Escaping is safe and loses nothing.**  An escaped text is safe, and replacing its entities
from left to right gives back the text that was escaped; so no two texts are escaped to the same
one.  And what is safe is an escaped text: escaping gives it back once its entities are replaced. -/
theorem escape_lossless :
    (∀ s, IsSafe (escape s).toList ∧ unescape (escape s) = s)
      ∧ Function.Injective escape
      ∧ ∀ t, IsSafe t.toList → escape (unescape t) = t := by
  have hundone (s : String) : unescape (escape s) = s := by
    rw [unescape, escape, String.toList_ofList, unescapeChars_escapeChars, String.ofList_toList]
  refine ⟨fun s => ⟨?_, hundone s⟩, fun s t h => ?_, fun t ht => ?_⟩
  · rw [escape, String.toList_ofList]
    exact isSafe_escapeChars s.toList
  · rw [← hundone s, h, hundone t]
  · rw [escape, unescape, String.toList_ofList, escapeChars_unescapeChars t.toList ht,
      String.ofList_toList]

/-- A tag behind what looks like an entity: the text is escaped to a safe one, which leads back. -/
theorem escape_lossless_nested :
    escape "&lt;<b>" = "&amp;lt;&lt;b&gt;"
      ∧ IsSafe "&amp;lt;&lt;b&gt;".toList
      ∧ unescape "&amp;lt;&lt;b&gt;" = "&lt;<b>"
      ∧ escape (unescape "&amp;lt;&lt;b&gt;") = "&amp;lt;&lt;b&gt;" := by
  obtain ⟨hescaped, -, hback⟩ := escape_lossless
  have heq : escape "&lt;<b>" = "&amp;lt;&lt;b&gt;" := by decide
  obtain ⟨hsafe, hundone⟩ := hescaped "&lt;<b>"
  rw [heq] at hsafe hundone
  exact ⟨heq, hsafe, hundone, hback _ hsafe⟩

end Stencil.Text
