import Stencil.Proofs.Cutting
import Stencil.Proofs.ParserEnds
import Stencil.Proofs.Reading.Comments
import Stencil.Proofs.Reading.Solitary
import Stencil.Proofs.Renumbering

/-!
# Comments at the end of markers

A comment at the end of a marker of code changes nothing, and nor does one behind another comment.
A comment behind what a marker writes reaches over the parenthesis and the semicolon that close the
statement, so that a template that could be compiled cannot be compiled with the comment.

* `IsCut.replace` — another marker in the place of one;
* `MarkerKind.inner`, `MarkerKind.piece_inner` — what stands in a marker, and the piece that it is;
* `Engine.Bare.alike_of_program` — templates with one program are compiled and rendered alike;
* `Engine.Bare.refuses` — a template without a program is refused by every render;
* `render_remarked` — the main theorem.
-/

namespace Stencil.Template

open Stencil.Text

/-! ### Another marker in the place of one -/

/-- What stands behind a prefix and this place does not matter. -/
theorem prefix_drop_congr {needle front back back' : List Char} {i : Nat}
    (h : needle <+: (front ++ back).drop i) (hi : i + needle.length ≤ front.length) :
    needle <+: (front ++ back').drop i := by
  have hdrop (rest : List Char) : (front ++ rest).drop i = front.drop i ++ rest :=
    List.drop_append_of_le_length (by omega)
  rw [hdrop] at h ⊢
  have hfront : needle <+: front.drop i :=
    List.prefix_of_prefix_length_le h (List.prefix_append _ _) (by rw [List.length_drop]; omega)
  exact hfront.trans (List.prefix_append _ _)

/-- Whether markers close as soon as they can does not depend on what follows them. -/
theorem Near.change {inner rest : List Char} (h : Near inner rest) (rest' : List Char) :
    Near inner rest' := by
  refine ⟨h.1, fun i hi hlt hclosing => h.2 i hi hlt ?_⟩
  rw [← List.append_assoc] at hclosing ⊢
  refine prefix_drop_congr hclosing ?_
  simp only [List.length_append, closing, List.length_cons, List.length_nil]
  omega

/-- No close stands in what has no two brackets in a row and does not end with one. -/
theorem near_of_apart {inner : List Char} (hne : inner ≠ []) (h : Apart ']' inner)
    (hlast : inner.getLast? ≠ some ']') (rest : List Char) : Near inner rest :=
  ⟨hne, fun i _ hlt => (cut_eq_some_iff.mp (cut_pair h hlast rest)).2 i hlt⟩

section Replace

variable {front back : List Part} {inner inner' : List Char}

theorem written_marker (front back : List Part) (inner : List Char) :
    written (front ++ .marker inner :: back)
      = written front ++ (opening ++ (inner ++ (closing ++ written back))) := by
  simp only [written, List.flatMap_append, List.flatMap_cons, Part.written, List.append_assoc]

/-- **Another marker in the place of one** leaves the cut as it is. -/
theorem IsCut.replace (h : IsCut (front ++ .marker inner :: back)) (hnear : Near inner' []) :
    IsCut (front ++ .marker inner' :: back) := by
  induction front with
  | nil =>
    cases h with
    | marker _ hrest => exact .marker (hnear.change _) hrest
  | cons part front ih =>
    rw [List.cons_append] at h ⊢
    cases part with
    | marker inner₁ =>
      cases h with
      | marker hfirst hrest => exact .marker (hfirst.change _) (ih hrest)
    | text cs =>
      cases h with
      | text hne hapart hopens hrest =>
        refine .text hne ?_ (fun i hi hopen => hopens i hi ⟨?_, ?_⟩) (ih hrest)
        · cases front with
          | nil => exact nofun
          | cons part front => exact hapart
        · -- What opens in the text ends in front of the inside of the marker.
          have hopening := hopen.1
          rw [written_marker, ← List.append_assoc, ← List.append_assoc] at hopening ⊢
          refine prefix_drop_congr hopening ?_
          simp only [List.length_append, opening, List.length_cons, List.length_nil]
          omega
        · -- The marker closes behind it.
          have hwhole : cs ++ written (front ++ .marker inner :: back)
              = cs ++ (written front ++ (opening ++ inner)) ++ (closing ++ written back) := by
            rw [written_marker]
            simp only [List.append_assoc]
          refine ⟨(cs ++ (written front ++ (opening ++ inner))).length, ?_, ?_⟩
          · simp only [List.length_append, opening, List.length_cons, List.length_nil]
            omega
          · rw [hwhole, List.drop_left]
            exact List.prefix_append _ _

end Replace

/-- A template is cut into the pieces of its cut. -/
theorem IsCut.tokenize_eq {parts : List Part} (h : IsCut parts) :
    tokenize (String.ofList (written parts)) = parts.map Part.piece := by
  obtain ⟨parts', hparts', hwritten, htokens⟩ :=
    exists_cut (written parts).length (Nat.le_refl _)
  obtain rfl := h.unique hparts' hwritten
  rw [tokenize, String.toList_ofList]
  exact htokens

end Stencil.Template

namespace Stencil.Reading

open Text Template Routine

/-! ### Markers with a comment -/

namespace MarkerKind

variable (kind : MarkerKind) {cs : List Char}

/-- What stands in a marker with these characters. -/
def inner (cs : List Char) : List Char := kind.sigil ++ ' ' :: (cs ++ [' '])

theorem near_inner (h : Apart ']' cs) (rest : List Char) : Near (kind.inner cs) rest := by
  have hfront : ']' ∉ kind.sigil ++ [' '] := by cases kind <;> decide
  have hapart : Apart ']' (kind.inner cs) := by
    have hbetween := apart_between hfront h (by decide : ']' ∉ [' '])
    simpa [inner] using hbetween
  refine near_of_apart ?_ hapart ?_ rest
  · cases kind <;> exact List.cons_ne_nil _ _
  · rw [inner, ← List.cons_append, ← List.append_assoc, List.getLast?_concat]
    decide

/-- A marker is a piece with its characters, but for the blanks around them. -/
theorem piece_inner (cs : List Char) :
    (Part.marker (kind.inner cs)).piece
      = kind.piece (String.ofList (trim (' ' :: (cs ++ [' '])))) := by
  cases kind <;> rfl

end MarkerKind

namespace MarkerBody

variable (b : MarkerBody) {c : List Char}

/-- What stands in a marker, with a comment behind it. -/
def remarked (c : List Char) : List Char := b.chars ++ ' ' :: '/' :: '/' :: ' ' :: c

theorem apart_remarked (hc : contains closing c = false) : Apart ']' (b.remarked c) := by
  have hbehind : Apart ']' (' ' :: '/' :: '/' :: ' ' :: c) := by
    have hslashes : ']' ∉ [' ', '/', '/', ' '] := by decide
    have h := apart_between hslashes ((apart_iff _ _).mpr hc) List.not_mem_nil
    simpa using h
  exact b.apart.append_of_head hbehind (by rintro ⟨⟩)

theorem piece_plain (kind : MarkerKind) :
    (Part.marker (kind.inner b.chars)).piece = kind.piece b.text := by
  rw [kind.piece_inner, trim_spaced b.front b.back, text]

/-- The blanks behind a comment are no part of the piece. -/
theorem piece_remarked (kind : MarkerKind) (hc : '\n' ∉ c) :
    ∃ c', '\n' ∉ c'
      ∧ (Part.marker (kind.inner (b.remarked c))).piece = kind.piece (commented b.text c') := by
  obtain ⟨back, hback, htail, hlast⟩ := trimEnd_eq_iff.mp (rfl : trimEnd (' ' :: (c ++ [' '])) = _)
  generalize trimEnd (' ' :: (c ++ [' '])) = c' at htail hlast
  have hblank : Blanks [' '] := List.forall_mem_singleton.mpr rfl
  have htrim : trim (' ' :: (b.remarked c ++ [' '])) = b.chars ++ ' ' :: '/' :: '/' :: c' := by
    refine trim_eq_iff.mpr ⟨⟨[' '], back, hblank, hback, ?_⟩, fun d hd => ?_, fun d hd => ?_⟩
    · have hbody : b.remarked c ++ [' '] = b.chars ++ (' ' :: '/' :: '/' :: c' ++ back) := by
        simp only [remarked, List.append_assoc, List.cons_append, ← htail]
      rw [hbody, List.singleton_append, List.append_assoc]
    · rw [List.head?_append_of_ne_nil _ b.nonempty] at hd
      exact b.front d hd
    · cases c' with
      | nil =>
        rw [List.getLast?_append_of_ne_nil _ (List.cons_ne_nil _ _)] at hd
        cases hd
        decide
      | cons e c' =>
        have hsplit : b.chars ++ ' ' :: '/' :: '/' :: e :: c'
            = (b.chars ++ [' ', '/', '/']) ++ e :: c' := by simp
        rw [hsplit, List.getLast?_append_of_ne_nil _ (List.cons_ne_nil _ _)] at hd
        exact hlast d hd
  refine ⟨c', fun hmem => ?_, ?_⟩
  · have hline : '\n' ∉ ' ' :: (c ++ [' ']) := by simpa using hc
    rw [htail] at hline
    exact hline (List.mem_append_left _ hmem)
  · rw [kind.piece_inner, htrim, commented, text, String.toList_ofList]

end MarkerBody

end Stencil.Reading

namespace Stencil

open Routine Reading Template

/-! ### Templates with one program -/

/-- The program of a template on an engine without hooks, if it has one. -/
def programOf (template : String) : Except Stop Program :=
  parseProgram [dataName, escapeName] (inDataScope (generate (tokenize template)))

namespace Engine.Bare

variable {e : Engine} (h : e.Bare) {template : String}
include h

/-- A template with a program is compiled, or was before, and the heap stays. -/
theorem compile_of_program {program : Program} (hprogram : programOf template = .ok program) :
    ∃ routine after, e.compile template = (.ok routine, ⟨e.setting, after⟩)
      ∧ routine.program = program.numbered ∧ after.heap = e.store.heap := by
  rcases h.kept.compile fun _ => fromTemplate_of_new h.hooks template with
    ⟨routine, after, hcompile, ⟨program', hprogram', hroutine⟩, -, hheap⟩
      | ⟨stop, after, -, hstop, -⟩
  · obtain rfl : program = program' := Except.ok.inj (hprogram.symm.trans hprogram')
    exact ⟨routine, after, compile_ok hcompile, hroutine, hheap⟩
  · rw [parseProgram_of_unhooked h.hooks] at hstop
    exact nomatch hprogram.symm.trans hstop

/-- A template without a program is refused. -/
theorem compile_of_stop {stop : Stop} (hstop : programOf template = .error stop) :
    ∃ after, e.compile template = (.error (stopError stop), ⟨e.setting, after⟩) := by
  rcases h.kept.compile fun _ => fromTemplate_of_new h.hooks template with
    ⟨routine, after, -, ⟨program, hprogram, -⟩, -, -⟩ | ⟨stop', after, hcompile, hstop', -⟩
  · exact nomatch hstop.symm.trans hprogram
  · rw [parseProgram_of_unhooked h.hooks] at hstop'
    obtain rfl : stop = stop' := Except.error.inj (hstop.symm.trans hstop')
    exact ⟨after, compile_error hcompile⟩

/-- A template that is compiled has a program. -/
theorem program_of_compile {routine : Compiled} (hcompile : (e.compile template).1 = .ok routine) :
    ∃ program, programOf template = .ok program := by
  cases hprogram : programOf template with
  | ok program => exact ⟨program, rfl⟩
  | error stop =>
    obtain ⟨after, hstop⟩ := h.compile_of_stop hprogram
    rw [hstop] at hcompile
    cases hcompile

variable (hempty : template.isEmpty = false)
include hempty

/-- A template without a program is refused by every render as well. -/
theorem render_of_stop {stop : Stop} (hstop : programOf template = .error stop) (bound : Nat)
    (data : Json) : (e.render bound (some template) data).1 = .error (stopError stop) := by
  obtain ⟨after, hcompile⟩ := (h.make fun heap => heap.ofJson data).compile_of_stop hstop
  rw [render_eq_renderMade, renderMade_eq_renderBy, renderBy_some, hempty,
    if_neg Bool.false_ne_true, hcompile]

/-- A template that is no program is refused, and rendering it as well. -/
theorem refuses (hnone : ∀ program, programOf template ≠ .ok program) :
    ∃ fault, (e.compile template).1 = .error (.compile fault)
      ∧ ∀ bound data, (e.render bound (some template) data).1 = .error (.compile fault) := by
  cases hstop : programOf template with
  | ok program => exact absurd hstop (hnone program)
  | error stop =>
    cases stop with
    | exhausted => exact absurd hstop (parseProgram_ne_exhausted _ _)
    | fault fault =>
      obtain ⟨after, hcompile⟩ := h.compile_of_stop hstop
      exact ⟨fault, congrArg Prod.fst hcompile, h.render_of_stop hempty hstop⟩

/-- **Templates with one program** are compiled alike and rendered alike, whatever is kept. -/
theorem alike_of_program (hgives : e.setting.GivesNothing) {template' : String}
    (hempty' : template'.isEmpty = false) (hsame : programOf template' = programOf template) :
    (e.compile template').1.map Compiled.program = (e.compile template).1.map Compiled.program
      ∧ ∀ bound data, (e.render bound (some template') data).1
        = (e.render bound (some template) data).1 := by
  cases hprogram : programOf template with
  | error stop =>
    have hstop := hsame.trans hprogram
    obtain ⟨after, hcompile⟩ := h.compile_of_stop hprogram
    obtain ⟨after', hcompile'⟩ := h.compile_of_stop hstop
    refine ⟨by rw [hcompile, hcompile'], fun bound data => ?_⟩
    rw [h.render_of_stop hempty hprogram, h.render_of_stop hempty' hstop]
  | ok program =>
    have hprogram' := hsame.trans hprogram
    refine ⟨?_, fun bound data => ?_⟩
    · obtain ⟨routine, after, hcompile, hroutine, -⟩ := h.compile_of_program hprogram
      obtain ⟨routine', after', hcompile', hroutine', -⟩ := h.compile_of_program hprogram'
      rw [hcompile, hcompile', Except.map, Except.map, hroutine, hroutine']
    · have hmade := h.make fun heap => heap.ofJson data
      obtain ⟨routine, after, hcompile, hroutine, hheap⟩ := hmade.compile_of_program hprogram
      obtain ⟨routine', after', hcompile', hroutine', hheap'⟩ := hmade.compile_of_program hprogram'
      simp only [render_eq_renderMade, renderMade_eq_renderBy, renderBy_some]
      rw [hempty, hempty', if_neg Bool.false_ne_true, if_neg Bool.false_ne_true, hcompile,
        hcompile']
      exact congrArg (Except.mapError haltError) (renderTop_renumbered hgives
        (hroutine'.trans hroutine.symm) bound e.store.heap data hheap' hheap)

end Engine.Bare

/-! ### Engines without plugins -/

/-- Operations without plugins leave the setting of an engine that was made without. -/
theorem setting_perform_plain {cap : Nat} {e : Engine}
    (h : e.setting = (Engine.create cap).setting) {op : Operation} (hop : op.isPlain = true) :
    (op.perform e).2.setting = (Engine.create cap).setting := by
  cases op with
  | use p => cases hop
  | hook a => cases hop
  | registerFragment name source =>
    simp only [Operation.perform, Engine.registerFragment, Engine.fragments, h]
    exact h
  | removeFragment name =>
    simp only [Operation.perform, Engine.removeFragment, Engine.fragments, h]
    exact h
  | registerLayout name source =>
    simp only [Operation.perform, Engine.registerLayout, Engine.layouts, h]
    exact h
  | registerHelper name code =>
    simp only [Operation.perform, Engine.registerHelper, Engine.helpers, h]
    exact h
  | addMessages locale messages =>
    simp only [Operation.perform, Engine.addMessages, Engine.catalog, h]
    exact h
  | setLocale locale =>
    simp only [Operation.perform, Engine.setLocale, Engine.catalog, h]
    exact h
  | compile template => exact (e.setting_compile template).trans h
  | render bound template data => exact (e.setting_render bound template data).trans h
  | renderValue bound template v => exact (e.setting_renderValue bound template v).trans h
  | clear => exact h

theorem setting_after_plain {cap : Nat} {e : Engine} (h : e.setting = (Engine.create cap).setting)
    {ops : List Operation} (hops : ∀ op ∈ ops, op.isPlain = true) :
    (e.after ops).setting = (Engine.create cap).setting := by
  induction ops generalizing e with
  | nil => exact h
  | cons op ops ih =>
    obtain ⟨hop, hops⟩ := List.forall_mem_cons.mp hops
    exact ih (setting_perform_plain h hop) hops

theorem givesNothing_create (cap : Nat) : (Engine.create cap).setting.GivesNothing :=
  ⟨⟨_, _, _, rfl⟩, rfl, rfl, rfl⟩

/-! ### The main theorem -/

/-- The template with a marker of the kind between these parts. -/
def templateAround (front : List Part) (kind : MarkerKind) (cs : List Char) (back : List Part) :
    String :=
  String.ofList (written (front ++ .marker (kind.inner cs) :: back))

theorem isEmpty_templateAround (front : List Part) (kind : MarkerKind) (cs : List Char)
    (back : List Part) : (templateAround front kind cs back).isEmpty = false := by
  rw [← Bool.not_eq_true, String.isEmpty_iff]
  intro hempty
  have hchars := congrArg (List.length ∘ String.toList) hempty
  simp only [templateAround, Function.comp, String.toList_ofList, written_marker, opening,
    List.length_append, List.length_cons, String.toList_empty, List.length_nil] at hchars
  omega

/-- **A comment at the end of a marker.**  Take an engine without plugins, whatever it was used for,
a template in which what the markers in front hold is cut into tokens by itself, and a marker whose
content is cut into tokens by itself.  A comment behind code, or behind another comment, changes
neither whether the template is compiled, and to what program, nor what it renders.  But a comment
behind what is written reaches over the end of the statement: if the template can be compiled without
it, then with it it cannot, and every render reports that fault. -/
theorem render_remarked (cap : Nat) {ops : List Operation} (hops : ∀ op ∈ ops, op.isPlain = true)
    {front back : List Part} (kind : MarkerKind) (body : MarkerBody) {c : List Char}
    (hcut : IsCut (front ++ .marker (kind.inner body.chars) :: back))
    (hfront : ∀ part ∈ front, LexesAlone part.piece)
    (hbody : ∃ lexed, lex body.text = .ok lexed) (hline : '\n' ∉ c)
    (hclose : Text.contains closing c = false) {e : Engine}
    (he : e = (Engine.create cap).after ops) {plain remarked : String}
    (hplain : plain = templateAround front kind body.chars back)
    (hremarked : remarked = templateAround front kind (body.remarked c) back) :
    (kind = .code ∨ endsInComment body.text = true →
        (e.compile remarked).1.map Compiled.program = (e.compile plain).1.map Compiled.program
          ∧ ∀ bound data, (e.render bound (some remarked) data).1
            = (e.render bound (some plain) data).1)
      ∧ (kind ≠ .code → endsInComment body.text = false →
          ∀ routine, (e.compile plain).1 = .ok routine →
          ∃ fault, (e.compile remarked).1 = .error (.compile fault)
            ∧ ∀ bound data, (e.render bound (some remarked) data).1
              = .error (.compile fault)) := by
  have hbare : e.Bare := he ▸ bare_after (bare_onStore {} #[] cap) hops
  have hgives : e.setting.GivesNothing := by
    rw [he, setting_after_plain rfl hops]
    exact givesNothing_create cap
  have hempty : plain.isEmpty = false := hplain ▸ isEmpty_templateAround _ _ _ _
  have hempty' : remarked.isEmpty = false := hremarked ▸ isEmpty_templateAround _ _ _ _
  obtain ⟨c', hline', hpiece⟩ := body.piece_remarked kind hline
  have hpieces : tokenize plain = front.map Part.piece ++ kind.piece body.text
      :: back.map Part.piece := by
    rw [hplain, templateAround, hcut.tokenize_eq, List.map_append, List.map_cons, body.piece_plain]
  have hpieces' : tokenize remarked = front.map Part.piece ++ kind.piece (commented body.text c')
      :: back.map Part.piece := by
    have hnear := kind.near_inner (body.apart_remarked hclose) []
    rw [hremarked, templateAround, (hcut.replace hnear).tokenize_eq, List.map_append,
      List.map_cons, hpiece]
  have hfront' : ∀ piece ∈ front.map Part.piece, LexesAlone piece := List.forall_mem_map.mpr hfront
  refine ⟨fun hkind => ?_, fun hkind hends routine hcompile => ?_⟩
  · refine hbare.alike_of_program hempty hgives hempty' ?_
    rw [programOf, programOf, hpieces, hpieces']
    exact parseProgram_commented hfront' kind hbody hline' _ _ hkind
  · obtain ⟨program, hprogram⟩ := hbare.program_of_compile hcompile
    rw [programOf, hpieces] at hprogram
    refine hbare.refuses hempty' fun program' => ?_
    rw [programOf, hpieces']
    exact parseProgram_ne_commented hfront' kind hbody hline' _ _ hkind hends hprogram program'

/-- What stands in a marker that holds the data. -/
def dataBody : MarkerBody where
  chars := ['d', 'a', 't', 'a']
  nonempty := nofun
  front := by
    rintro c ⟨⟩
    decide
  back := by
    rintro c ⟨⟩
    decide
  noClose := by decide

theorem render_remarked_data :
    (∀ bound data, ((Engine.create 2).render bound (some "A[[ data // all ]]") data).1
        = ((Engine.create 2).render bound (some "A[[ data ]]") data).1)
      ∧ ∃ fault, ∀ bound data, ((Engine.create 2).render bound (some "A[[- data // all ]]") data).1
        = .error (.compile fault) := by
  have hcut (kind : MarkerKind) :
      IsCut ([.text ['A']] ++ .marker (kind.inner dataBody.chars) :: []) := by
    refine .text (List.cons_ne_nil _ _) nofun (fun i hi hopens => ?_)
      (.marker (kind.near_inner dataBody.apart _) .nil)
    obtain rfl : i = 0 := Nat.lt_one_iff.mp hi
    exact absurd hopens.1 (by cases kind <;> decide)
  have hfront : ∀ part ∈ [Part.text ['A']], LexesAlone part.piece := by
    rintro part (_ | ⟨_, ⟨⟩⟩)
    trivial
  have hdata : ∃ lexed, lex dataBody.text = .ok lexed := ⟨⟨[⟨.name "data", 1⟩], 1⟩, by cbv⟩
  have hops : ∀ op ∈ ([] : List Operation), op.isPlain = true := List.forall_mem_nil _
  have h (kind : MarkerKind) := render_remarked 2 hops kind dataBody (c := "all".toList)
    (hcut kind) hfront hdata (by decide) (by decide) rfl rfl rfl
  have hcode := (h .code).1 (.inl rfl)
  have hcompile : ((Engine.create 2).compile "A[[- data ]]").1.isOk = true := by
    decide +kernel
  obtain ⟨routine, hroutine⟩ : ∃ routine,
      ((Engine.create 2).compile "A[[- data ]]").1 = .ok routine := by
    cases h : ((Engine.create 2).compile "A[[- data ]]").1 with
    | ok routine => exact ⟨routine, rfl⟩
    | error err =>
      rw [h] at hcompile
      cases hcompile
  obtain ⟨fault, -, hraw⟩ := (h .raw).2 (by decide) (by cbv) routine hroutine
  exact ⟨hcode.2, fault, hraw⟩

/-- **The comment that is not only a comment.**  A marker that writes a text is compiled, and the
same marker with a comment is not, although a marker of code may end in one. -/
theorem render_swallowedEnd :
    ((Engine.create 2).render 99 (some "[[= 'a' ]]") (.object [])).1 = .ok "a"
      ∧ ((Engine.create 2).render 99 (some "[[= 'a' // c ]]") (.object [])).1
        = .error (.compile ⟨4, .expected "')'" "'return'"⟩)
      ∧ ((Engine.create 2).render 99 (some "[[ 'a' // c ]]") (.object [])).1 = .ok "" := by
  decide +kernel

end Stencil
