import Stencil.Proofs.Reading.Values

/-!
# Scopes of a running tree

While the statements of a tree run, only the output and the variables of loops change.  A scope sees
the names of the tree as long as looking them up in the heap gives what they stand for, and this
lasts whatever the statements write.

* `Outputs` — a scope in which the output is some text;
* `Sees` — such a scope in which names stand for JSON values;
* `Writes` — all that statements of a tree do to the heap that there was before them;
* `Outputs.assign_eq`, `Outputs.writes_setLocal` — writing to the output;
* `Sees.writes`, `Sees.newFrame`, `Sees.bindItem` — a scope goes on to see what it saw.
-/

namespace Stencil.Reading

open Routine Template

/-! ### Looking names up -/

theorem linkValue?_locals (h : Heap) (name : String) (place : Nat) :
    h.linkValue? name (.locals place) = ((h.frame place).get? name).map Binding.value := rfl

theorem find?_cons_of_none {h : Heap} {name : String} {link : Link} (scope : Scope)
    (hlink : h.linkValue? name link = none) :
    h.find? name (link :: scope) = h.find? name scope := by
  simp only [Heap.find?]
  rw [List.findSome?_cons, hlink]

theorem find?_cons_of_some {h : Heap} {name : String} {link : Link} {v : Value} (scope : Scope)
    (hlink : h.linkValue? name link = some v) : h.find? name (link :: scope) = some v := by
  rw [Heap.find?]
  rw [List.findSome?_cons, hlink]

theorem holder?_cons_of_false {h : Heap} {name : String} {link : Link} (scope : Scope)
    (hlink : h.holds name link = false) :
    h.holder? name (link :: scope) = h.holder? name scope := by
  rw [Heap.holder?, List.find?_cons, hlink, Heap.holder?]

theorem holder?_cons_of_true {h : Heap} {name : String} {link : Link} (scope : Scope)
    (hlink : h.holds name link = true) : h.holder? name (link :: scope) = some link := by
  rw [Heap.holder?, List.find?_cons, hlink]

/-- The link that has a name gives it its value. -/
theorem find?_of_holder? {h : Heap} {name : String} {scope : Scope} {link : Link}
    (hlink : h.holder? name scope = some link) : h.find? name scope = h.linkValue? name link := by
  induction scope with
  | nil => cases hlink
  | cons other scope ih =>
    have hsome := Heap.isSome_linkValue? h name other
    cases hvalue : h.linkValue? name other with
    | none =>
      rw [hvalue] at hsome
      rw [holder?_cons_of_false scope hsome.symm] at hlink
      rw [find?_cons_of_none scope hvalue]
      exact ih hlink
    | some v =>
      rw [hvalue] at hsome
      rw [holder?_cons_of_true scope hsome.symm] at hlink
      cases hlink
      rw [find?_cons_of_some scope hvalue, hvalue]

/-- Where all links agree on a name, so do lookups. -/
theorem find?_congr {h h' : Heap} {name : String} {scope : Scope}
    (hlinks : ∀ link ∈ scope, h'.linkValue? name link = h.linkValue? name link) :
    h'.find? name scope = h.find? name scope := by
  induction scope with
  | nil => rfl
  | cons link scope ih =>
    simp only [Heap.find?]
    rw [List.findSome?_cons, List.findSome?_cons, hlinks link List.mem_cons_self]
    cases h.linkValue? name link with
    | none => exact ih fun other hother => hlinks other (List.mem_cons_of_mem link hother)
    | some v => rfl

theorem holder?_congr {h h' : Heap} {name : String} {scope : Scope}
    (hlinks : ∀ link ∈ scope, h'.holds name link = h.holds name link) :
    h'.holder? name scope = h.holder? name scope := by
  induction scope with
  | nil => rfl
  | cons link scope ih =>
    simp only [Heap.holder?]
    rw [List.find?_cons, List.find?_cons, hlinks link List.mem_cons_self]
    cases h.holds name link with
    | false => exact ih fun other hother => hlinks other (List.mem_cons_of_mem link hother)
    | true => rfl

/-! ### Names that are not taken -/

theorem Variable.ne_taken (x : Variable) {name : String} (hname : name ∈ takenNames) :
    x.name ≠ name := by
  intro he
  have hfree : x.name ∉ takenNames := x.free
  rw [he] at hfree
  exact hfree hname

theorem Variable.ne_output (x : Variable) : x.name ≠ outputName := x.ne_taken (by decide)

theorem Variable.ne_escape (x : Variable) : x.name ≠ escapeName := x.ne_taken (by decide)

theorem Variable.ne_data (x : Variable) : x.name ≠ dataName := x.ne_taken (by decide)

/-! ### What scopes see -/

/-- A scope in which names stand for JSON values, the output is in the frame at `o`, and is
`out`. -/
structure Sees (h : Heap) (scope : Scope) (names : Names) (o : Nat) (out : String) : Prop where
  /-- A name that stands for a JSON value has a value that stands for it too. -/
  known : ∀ (x : Variable) j, names x.name = some j →
    ∃ v, h.find? x.name scope = some v ∧ Means h v (some j)
  /-- Other names have no value. -/
  unknown : ∀ x : Variable, names x.name = none → h.find? x.name scope = none
  /-- The function that escapes can be named. -/
  escapes : ∃ name identity,
    h.find? escapeName scope = some (.native name (.service .escape) identity)
  /-- The innermost output is the one in the frame. -/
  holder : h.holder? outputName scope = some (.locals o)
  /-- It is a text, and can be given another. -/
  output : (h.frame o).get? outputName = some ⟨.text out, true⟩
  /-- Names that nothing binds reach the functions that every routine can name. -/
  unguarded : scope.isGuarded = false
  /-- All frames are there. -/
  inside : ∀ place, .locals place ∈ scope → place < h.frames.size

/-- A scope in which the output is in the frame at `o`, and is `out`. -/
structure Outputs (h : Heap) (scope : Scope) (o : Nat) (out : String) : Prop where
  /-- The innermost output is the one in the frame. -/
  holder : h.holder? outputName scope = some (.locals o)
  /-- It is a text, and can be given another. -/
  output : (h.frame o).get? outputName = some ⟨.text out, true⟩
  /-- All frames are there. -/
  inside : ∀ place, .locals place ∈ scope → place < h.frames.size

theorem Sees.outputs {h : Heap} {scope : Scope} {names : Names} {o : Nat} {out : String}
    (hs : Sees h scope names o out) : Outputs h scope o out :=
  ⟨hs.holder, hs.output, hs.inside⟩

/-- What statements of a tree do to a heap: the output in the frame at `o` becomes `out`. -/
structure Writes (o : Nat) (h h' : Heap) (out : String) : Prop where
  /-- Arrays stay. -/
  arrays : h'.arrays = h.arrays
  /-- Objects stay. -/
  objects : h'.objects = h.objects
  /-- No frame is lost. -/
  size : h.frames.size ≤ h'.frames.size
  /-- The frames that there were keep their variables, except for the output. -/
  frames : ∀ place < h.frames.size, ∀ name, place ≠ o ∨ name ≠ outputName →
    (h'.frame place).get? name = (h.frame place).get? name
  /-- The output is a text, and can be given another. -/
  output : (h'.frame o).get? outputName = some ⟨.text out, true⟩

section

variable {h h' h'' : Heap} {scope : Scope} {names : Names} {o : Nat} {out out' out'' : String}

/-- A heap is as it was. -/
theorem Writes.refl (hs : Outputs h scope o out) : Writes o h h out :=
  ⟨rfl, rfl, Nat.le_refl _, fun _ _ _ _ => rfl, hs.output⟩

theorem Writes.trans (a : Writes o h h' out') (b : Writes o h' h'' out'') :
    Writes o h h'' out'' where
  arrays := b.arrays.trans a.arrays
  objects := b.objects.trans a.objects
  size := Nat.le_trans a.size b.size
  frames place hp name hname :=
    (b.frames place (Nat.lt_of_lt_of_le hp a.size) name hname).trans (a.frames place hp name hname)
  output := b.output

theorem Writes.members_eq (w : Writes o h h' out') (place : Nat) :
    h'.members place = h.members place := by
  rw [Heap.members, w.objects, Heap.members]

theorem Writes.extends (w : Writes o h h' out') : Extends h h' where
  arrays_size := Nat.le_of_eq (congrArg Array.size w.arrays.symm)
  items place _ := by
    rw [Heap.items, w.arrays, Heap.items]
  objects_size := Nat.le_of_eq (congrArg Array.size w.objects.symm)
  members place _ := w.members_eq place

/-- A link of the scope keeps what it has, except for the output. -/
theorem Writes.linkValue?_eq (w : Writes o h h' out') (hs : Outputs h scope o out) {link : Link}
    (hlink : link ∈ scope) {name : String} (hname : link ≠ .locals o ∨ name ≠ outputName) :
    h'.linkValue? name link = h.linkValue? name link := by
  cases link with
  | locals place =>
    have hplace : place ≠ o ∨ name ≠ outputName :=
      hname.imp_left fun hne heq => hne (congrArg Link.locals heq)
    rw [linkValue?_locals, linkValue?_locals, w.frames place (hs.inside place hlink) name hplace]
  | members object guarded =>
    cases object with
    | none => rfl
    | some place =>
      show (h'.members place).get? name = (h.members place).get? name
      rw [w.members_eq]

namespace Outputs

/-- The frame of the output is in the scope. -/
theorem output_inside (hs : Outputs h scope o out) : o < h.frames.size := by
  refine hs.inside o ?_
  exact List.mem_of_find?_eq_some hs.holder

theorem find?_output (hs : Outputs h scope o out) :
    h.find? outputName scope = some (.text out) := by
  rw [find?_of_holder? hs.holder, linkValue?_locals, hs.output]
  rfl

/-- Whatever is written, other names stand for what they stood for. -/
theorem find?_writes (hs : Outputs h scope o out) (w : Writes o h h' out') {name : String}
    (hname : name ≠ outputName) : h'.find? name scope = h.find? name scope :=
  find?_congr fun _ hlink => w.linkValue?_eq hs hlink (.inr hname)

/-- Whatever is written, the output is where it was. -/
theorem writes (hs : Outputs h scope o out) (w : Writes o h h' out') : Outputs h' scope o out' := by
  have hholder : h'.holder? outputName scope = h.holder? outputName scope := by
    refine holder?_congr ?_
    intro link hlink
    rw [← Heap.isSome_linkValue?, ← Heap.isSome_linkValue?]
    by_cases ho : link = .locals o
    · rw [ho, linkValue?_locals, linkValue?_locals, w.output, hs.output]
      rfl
    · rw [w.linkValue?_eq hs hlink (.inl ho)]
  refine ⟨?_, w.output, ?_⟩
  · rw [hholder]
    exact hs.holder
  · intro place hp
    exact Nat.lt_of_lt_of_le (hs.inside place hp) w.size

/-- Giving the output another text changes the variable in its frame. -/
theorem assign_eq (hs : Outputs h scope o out) (text : String) :
    h.assign outputName (.text text) scope
      = (.ok (), h.setLocal o outputName ⟨.text text, true⟩) := by
  rw [Heap.assign, hs.holder]
  dsimp only
  rw [Heap.assignAt, hs.output]
  rfl

theorem writes_setLocal (hs : Outputs h scope o out) (text : String) :
    Writes o h (h.setLocal o outputName ⟨.text text, true⟩) text := by
  have hinside := hs.output_inside
  refine ⟨rfl, rfl, ?_, ?_, ?_⟩
  · exact Nat.le_of_eq (Heap.size_setLocal h o outputName _).symm
  · intro place hp name hname
    rw [Heap.frame_setLocal _ _ _ _ hinside]
    by_cases he : o = place
    · have hne : outputName ≠ name := by
        intro heq
        exact hname.elim (fun hp => hp he.symm) fun hn => hn heq.symm
      rw [if_pos he, Roster.get?_insert, if_neg hne, he]
    · rw [if_neg he]
  · rw [Heap.frame_setLocal _ _ _ _ hinside, if_pos rfl, Roster.get?_insert, if_pos rfl]

end Outputs

/-- A scope goes on to see its names whatever is written. -/
theorem Sees.writes (hs : Sees h scope names o out) (w : Writes o h h' out') :
    Sees h' scope names o out' := by
  have houtputs := hs.outputs.writes w
  have hfind {name : String} (hname : name ≠ outputName) :
      h'.find? name scope = h.find? name scope :=
    hs.outputs.find?_writes w hname
  have houtput : escapeName ≠ outputName := by decide
  refine ⟨?_, ?_, ?_, houtputs.holder, houtputs.output, hs.unguarded, houtputs.inside⟩
  · intro x j hx
    obtain ⟨v, hv, hmeans⟩ := hs.known x j hx
    refine ⟨v, ?_, hmeans.extend w.extends⟩
    rw [hfind x.ne_output]
    exact hv
  · intro x hx
    rw [hfind x.ne_output]
    exact hs.unknown x hx
  · rw [hfind houtput]
    exact hs.escapes

/-! ### Frames -/

/-- The heap with a new frame that has one variable. -/
def withVariable (h : Heap) (name : String) (b : Binding) : Heap :=
  h.newFrame.2.setLocal h.frames.size name b

theorem frame_withVariable (h : Heap) (name : String) (b : Binding) (place : Nat) :
    (withVariable h name b).frame place
      = if place = h.frames.size then Roster.empty.insert name b else h.frame place := by
  have hsize := Heap.size_newFrame h
  rw [withVariable]
  rw [Heap.frame_setLocal _ _ _ _ (by omega), Heap.frame_newFrame, Heap.frame_newFrame, if_pos rfl]
  by_cases hp : place = h.frames.size
  · rw [if_pos hp.symm, if_pos hp]
  · rw [if_neg fun he => hp he.symm, if_neg hp, if_neg hp]

theorem size_withVariable (h : Heap) (name : String) (b : Binding) :
    (withVariable h name b).frames.size = h.frames.size + 1 := by
  rw [withVariable]
  rw [Heap.size_setLocal, Heap.size_newFrame]

/-- A new frame leaves the others as they are. -/
theorem writes_newFrame (hs : Sees h scope names o out) : Writes o h h.newFrame.2 out where
  arrays := rfl
  objects := rfl
  size := by
    rw [Heap.size_newFrame]
    omega
  frames place hp name _ := by
    rw [Heap.frame_newFrame, if_neg (Nat.ne_of_lt hp)]
  output := by
    rw [Heap.frame_newFrame, if_neg (Nat.ne_of_lt hs.outputs.output_inside)]
    exact hs.output

/-- So does a new frame with a variable. -/
theorem writes_withVariable (hs : Sees h scope names o out) (name : String) (b : Binding) :
    Writes o h (withVariable h name b) out where
  arrays := rfl
  objects := rfl
  size := by
    rw [size_withVariable]
    omega
  frames place hp name _ := by
    rw [frame_withVariable, if_neg (Nat.ne_of_lt hp)]
  output := by
    rw [frame_withVariable, if_neg (Nat.ne_of_lt hs.outputs.output_inside)]
    exact hs.output

namespace Sees

/-- With one more frame, the frames of a scope are there still. -/
theorem inside_cons (hs : Sees h scope names o out) {place : Nat}
    (hp : .locals place ∈ .locals h.frames.size :: scope) : place < h.frames.size + 1 := by
  rcases List.mem_cons.mp hp with heq | hmem
  · cases heq
    omega
  · have hinside := hs.inside place hmem
    omega

/-- Inside a new frame, a scope sees what is seen outside. -/
theorem newFrame (hs : Sees h scope names o out) :
    Sees h.newFrame.2 (.locals h.frames.size :: scope) names o out := by
  have houter := hs.writes (writes_newFrame hs)
  have hnone (name : String) : h.newFrame.2.linkValue? name (.locals h.frames.size) = none := by
    rw [linkValue?_locals, Heap.frame_newFrame, if_pos rfl]
    rfl
  have hfind (name : String) := find?_cons_of_none scope (hnone name)
  have hfalse : h.newFrame.2.holds outputName (.locals h.frames.size) = false := by
    rw [← Heap.isSome_linkValue?, hnone]
    rfl
  refine ⟨?_, ?_, ?_, ?_, houter.output, houter.unguarded, ?_⟩
  · intro x j hx
    rw [hfind]
    exact houter.known x j hx
  · intro x hx
    rw [hfind]
    exact houter.unknown x hx
  · rw [hfind]
    exact houter.escapes
  · rw [holder?_cons_of_false scope hfalse]
    exact houter.holder
  · intro place hp
    rw [Heap.size_newFrame]
    exact hs.inside_cons hp

/-- Inside a new frame with a variable, a scope sees the variable too. -/
theorem bindItem (hs : Sees h scope names o out) (x : Variable) {v : Value} {j : Json}
    (hv : Means h v (some j)) :
    Sees (withVariable h x.name ⟨v, false⟩) (.locals h.frames.size :: scope)
      (names.bind x.name j) o out := by
  have hwrites := writes_withVariable hs x.name ⟨v, false⟩
  have houter := hs.writes hwrites
  generalize hheap : withVariable h x.name ⟨v, false⟩ = inner at hwrites houter
  have hlink (name : String) : inner.linkValue? name (.locals h.frames.size)
      = if x.name = name then some v else none := by
    rw [linkValue?_locals, ← hheap, frame_withVariable, if_pos rfl, Roster.get?_insert]
    split <;> rfl
  have hhere : inner.find? x.name (.locals h.frames.size :: scope) = some v := by
    refine find?_cons_of_some scope ?_
    rw [hlink, if_pos rfl]
  have hfind {name : String} (hname : x.name ≠ name) :
      inner.find? name (.locals h.frames.size :: scope) = inner.find? name scope := by
    refine find?_cons_of_none scope ?_
    rw [hlink, if_neg hname]
  have hfalse : inner.holds outputName (.locals h.frames.size) = false := by
    rw [← Heap.isSome_linkValue?, hlink, if_neg x.ne_output]
    rfl
  refine ⟨?_, ?_, ?_, ?_, houter.output, houter.unguarded, ?_⟩
  · intro y k hy
    rw [Names.bind] at hy
    by_cases hxy : x.name = y.name
    · rw [if_pos hxy] at hy
      cases hy
      rw [← hxy]
      exact ⟨v, hhere, hv.extend hwrites.extends⟩
    · rw [if_neg hxy] at hy
      rw [hfind hxy]
      exact houter.known y k hy
  · intro y hy
    rw [Names.bind] at hy
    by_cases hxy : x.name = y.name
    · rw [if_pos hxy] at hy
      cases hy
    · rw [if_neg hxy] at hy
      rw [hfind hxy]
      exact houter.unknown y hy
  · rw [hfind x.ne_escape]
    exact houter.escapes
  · rw [holder?_cons_of_false scope hfalse]
    exact houter.holder
  · intro place hp
    rw [← hheap, size_withVariable]
    exact hs.inside_cons hp

end Sees

end

end Stencil.Reading
