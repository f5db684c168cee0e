import Stencil.Proofs.Reading.Solitary

/-!
# Messages

On an engine that translates, a template that is one message marker becomes the message of its key,
escaped.  The key goes through the source of a routine as a quoted text, and comes back as it was;
the message is looked up when the routine runs, so one that was compiled for another locale, or
before the message was added, shows the one that counts now.

* `MarkerBody.parse_messages` — the program of the routine of a message marker;
* `messageHooks`, `steady_messages` — the hooks of an engine that translates;
* `delivers_message` — what the routine writes;
* `activeLocale`, `lastMessage` — the locale and the message that a history comes to;
* `Engine.catalog_after` — the catalog of an engine with that history;
* `render_message` — the main theorem.
-/

namespace Stencil.Reading

open Routine Routine.Parser Template Text

/-! ### The program of a message marker -/

namespace MarkerBody

variable (key : MarkerBody)

/-- The call that a message marker is written as. -/
def messageCall : List Char := callText messageFunction (Json.quoteChars key.chars)

/-- What the routine of a message marker writes. -/
def messageExpr : Expr :=
  .call (.name escapeName) [.call (.name messageFunction) [.text key.text] false] false

theorem writeMessages_print :
    writeMessages (key.print '@')
      = String.ofList (opening ++ ('=' :: ' ' :: (key.messageCall ++ [' ']) ++ closing)) := by
  rw [writeMessages, key.replaceMarks_print, message_eq]
  simp [Template.messageCall, messageCall, callText]

/-- The template has one piece. -/
theorem tokenize_messages :
    tokenize (writeMessages (key.print '@')) = [.escaped (String.ofList key.messageCall)] := by
  rw [key.writeMessages_print]
  exact tokenize_call (fun _ => rfl) (by rintro c ⟨⟩; decide) (by decide)
    (apart_quoteChars (.inr rfl) key.apart)

/-- The piece is read off as the statement that writes the message. -/
theorem placed_message (k : Nat) :
    ∃ tokens k', Placed (.escaped (String.ofList key.messageCall)) [writeStmt key.messageExpr]
      (1 + k) tokens (k' + 1) := by
  refine ⟨_, 1 + k, placed_write 9 (([.name escapeName, .sign .openParen, .name messageFunction,
    .sign .openParen, .text key.text, .sign .closeParen, .sign .closeParen] : List Lexeme).map
      (onLine (1 + k))) (fun rest => ?_) (by decide) (by simp) fun rest => ?_⟩
  · have h := (lexes_writing (1 + k) _).append
      ((lexes_word (1 + k) _ 'e' ['s', 'c', 'a', 'p', 'e', 'H', 'T', 'M', 'L'] '('
          (by decide)).append
        ((lexes_sign (1 + k) _ .openParen (by decide)).append
          ((lexes_word (1 + k) _ 't' [] '(' (by decide)).append
            ((lexes_sign (1 + k) _ .openParen (by decide)).append
              ((Lexes.quoted (1 + k) key.chars _).append
                ((lexes_sign (1 + k) _ .closeParen (by decide)).append
                  ((lexes_sign (1 + k) _ .closeParen (by decide)).append
                    (lexes_semicolon (1 + k) rest))))))))
    simpa [Template.line, messageCall, callText, outputName, escapeName, messageFunction, text,
      onLine, Punctuator.spelling] using h
  · have hargument := gives_expression_text (1 + k) key.text itemPower
      (endsOperand_closeParen (1 + k)
        (onLine (1 + k) (.sign .closeParen) :: onLine (1 + k) (.sign .semicolon) :: rest))
    have hmessage : Gives (expression · itemPower) 6 (onLine (1 + k) (.name messageFunction) :: _)
        _ _ :=
      gives_expression_callName (1 + k) itemPower rfl rfl rfl (by omega) hargument
        (endsOperand_closeParen (1 + k) (onLine (1 + k) (.sign .semicolon) :: rest))
    exact gives_expression_callName (1 + k) itemPower rfl rfl rfl (by omega) hmessage
      (endsOperand_semicolon (1 + k) rest)

/-- **The routine of a message marker** writes the message of the key, whatever characters are in
it. -/
theorem parse_messages (params : List String) :
    parseProgram params (inDataScope (generate (tokenize (writeMessages (key.print '@')))))
      = .ok ⟨params, soleBody key.messageExpr⟩ := by
  obtain ⟨tokens, k', hplaced⟩ := key.placed_message 2
  rw [key.tokenize_messages]
  exact parse_placed params hplaced nofun

end MarkerBody

end Stencil.Reading

namespace Stencil

open Routine Reading Template

/-! ### Engines that translate -/

/-- The hooks of an engine that translates and does nothing else, given the number of the function
that gives messages. -/
def messageHooks (byKey : Nat) : Hooks :=
  (({} : Hooks).apply (.addPreprocessor .messages)).apply
    (.inject messageFunction (.constant (.native messageFunction (.service .message) byKey)))

/-- The parameters of a routine of such an engine. -/
def messageParams : List String := [dataName, escapeName, messageFunction]

/-- With these hooks, templates are read with their messages written as calls. -/
theorem parseProgram_of_messages {s : Setting} {byKey : Nat} (hhooks : s.hooks = messageHooks byKey)
    (template : String) :
    parseProgram s.params (s.source template)
      = parseProgram messageParams (inDataScope (generate (tokenize (writeMessages template)))) := by
  rw [Setting.params, Setting.source, Setting.wrap, Setting.preprocess]
  rw [hhooks]
  rfl

/-- A new engine on which messages are installed. -/
theorem steady_messages (cap : Nat) (locale : String) (P : String → Compiled → Prop) :
    ∃ byKey, ((Engine.create cap).use (.messages locale)).Steady (messageHooks byKey) P :=
  ⟨1, rfl, ⟨0, rfl⟩, .of_create cap rfl (Nat.zero_le _)⟩

/-! ### What the routine writes -/

/-- The message of a key on an engine with this setting. -/
def Setting.messageOf (s : Setting) (key : String) : String :=
  (s.catalog.map (·.message key)).getD key

section Writing

variable {s : Setting} {fragment : String → Run String}

/-- A message that is asked for by its key alone is given as it is. -/
theorem perform_message (key : String) (store : Store) :
    s.perform fragment .message [.text key] store = .ok (.text (s.messageOf key)) store :=
  (run_bind_ok (firstText_text key store)).trans rfl

theorem perform_escape (text : String) (store : Store) :
    s.perform fragment .escape [.text text] store = .ok (.text (Text.escape text)) store :=
  (run_bind_ok (textOf_text text store)).trans rfl

/-- Where the functions of the engine can be named, the message is delivered, escaped. -/
theorem delivers_message (key : MarkerBody) {around : Surroundings}
    (hperform : around.perform = s.perform fragment) (hcalls : around.calls ≠ 0) {store : Store}
    {scope : Scope} {o : Nat} (hs : Outputs store.heap (.locals o :: scope) o "")
    (escape byKey : Nat)
    (hescape : store.heap.find? escapeName (.locals o :: scope)
      = some (.native escapeName (.service .escape) escape))
    (hmessage : store.heap.find? messageFunction (.locals o :: scope)
      = some (.native messageFunction (.service .message) byKey)) (bound : Nat) :
    Delivers o (eval (bound + 3) around (.locals o :: scope) key.messageExpr) store
      (.ok (Text.escape (s.messageOf key.text))) := by
  have hinner : eval (bound + 2) around (.locals o :: scope)
      (.call (.name messageFunction) [.text key.text] false) store
        = .ok (.text (s.messageOf key.text)) store := by
    rw [eval_serviceCall hmessage hcalls, hperform, perform_message]
  refine ⟨.text (Text.escape (s.messageOf key.text)), store, ?_, display_text _ _, _, hs.output⟩
  rw [MarkerBody.messageExpr, eval_serviceCall_eq hescape hcalls _ (bound + 1), hperform]
  exact (run_bind_ok hinner).trans (perform_escape _ store)

/-- The routine of a message marker comes to the message of the key, escaped. -/
theorem concludes_message (key : MarkerBody) {byKey : Nat} (hhooks : s.hooks = messageHooks byKey)
    {escape : Nat} (hescape : s.escape = .native escapeName (.service .escape) escape)
    {routine : Compiled} (hroutine : routine.program = ⟨messageParams, soleBody key.messageExpr⟩)
    {store : Store} {data : Value}
    (hkey : store.heap.linkValue? messageFunction (openedLink data false) = none)
    (hkey' : store.heap.linkValue? escapeName (openedLink data false) = none) (bound : Nat) :
    Concludes (s.invoke (bound + 6) fragment routine data) store
      (.ok (Text.escape (s.messageOf key.text))) := by
  have hproviders : s.hooks.providers
      = [Value.native messageFunction (.service .message) byKey].map Provider.constant := by
    rw [hhooks]
    rfl
  have hparams : messageParams.Nodup := by decide
  have hcalls : callLimit ≠ 0 := by decide
  refine concludes_sole hproviders hroutine hparams rfl ?_
  refine delivers_message key rfl hcalls outputs_marker escape byKey ?_ ?_ bound
  · rw [← hescape]
    exact find?_marker hparams (.tail _ (.head _)) (by decide) hkey'
  · exact find?_marker hparams (.tail _ (.tail _ (.head _))) (by decide) hkey

end Writing

/-! ### Histories of messages -/

/-- The message of a key in a table, given what it was before messages were added one after the
other. -/
def said (key : String) (before : Option String) (messages : List (String × String)) :
    Option String :=
  messages.foldl (fun before message => if message.1 = key then some message.2 else before) before

namespace Operation

/-- The locale that is active after an operation, given the one that was before it. -/
def activates (before : String) : Operation → String
  | .setLocale locale => locale
  | _ => before

/-- The message of a key in a locale after an operation, given what it was before. -/
def tells (locale key : String) (before : Option String) : Operation → Option String
  | .addMessages other messages => if other = locale then said key before messages else before
  | _ => before

/-- What an operation makes of the catalog. -/
def onCatalog (c : Catalog) : Operation → Catalog
  | .addMessages locale messages => c.add locale messages
  | .setLocale locale => c.setLocale locale
  | _ => c

end Operation

/-- The locale that is active after operations, given the one that was before them. -/
def activeLocale (locale : String) (ops : List Operation) : String :=
  ops.foldl Operation.activates locale

/-- The message that was added last for a key in a locale. -/
def lastMessage (locale key : String) (ops : List Operation) : Option String :=
  ops.foldl (fun before op => op.tells locale key before) none

namespace Catalog

/-- The message of a key in a locale, active or not. -/
def messageIn? (c : Catalog) (locale key : String) : Option String :=
  (c.tables.get? locale).bind (·.get? key)

theorem get?_insertAll (table : Roster String) (messages : List (String × String)) (key : String) :
    (table.insertAll messages).get? key = said key (table.get? key) messages := by
  induction messages generalizing table with
  | nil => rfl
  | cons message messages ih =>
    show ((table.insert message.1 message.2).insertAll messages).get? key = _
    rw [ih, Roster.get?_insert]
    rfl

/-- Messages that are added count for their locale and their keys only. -/
theorem messageIn?_add (c : Catalog) (other : String) (messages : List (String × String))
    (locale key : String) :
    (c.add other messages).messageIn? locale key
      = if other = locale then said key (c.messageIn? locale key) messages
        else c.messageIn? locale key := by
  rw [messageIn?, add, Roster.get?_insert]
  split
  · rename_i hlocale
    subst hlocale
    rw [Option.bind_some, get?_insertAll, messageIn?]
    cases c.tables.get? other <;> rfl
  · rfl

/-- A history makes a locale active, and gives each key its last message. -/
theorem foldl_onCatalog (c : Catalog) (ops : List Operation) :
    (ops.foldl Operation.onCatalog c).locale = activeLocale c.locale ops
      ∧ ∀ locale key, (ops.foldl Operation.onCatalog c).messageIn? locale key
        = ops.foldl (fun before op => op.tells locale key before) (c.messageIn? locale key) := by
  induction ops generalizing c with
  | nil => exact ⟨rfl, fun _ _ => rfl⟩
  | cons op ops ih =>
    obtain ⟨hlocale, hmessages⟩ := ih (op.onCatalog c)
    have hone : (op.onCatalog c).locale = op.activates c.locale := by cases op <;> rfl
    have htells (locale key : String) :
        (op.onCatalog c).messageIn? locale key = op.tells locale key (c.messageIn? locale key) := by
      cases op with
      | addMessages other messages => exact c.messageIn?_add other messages locale key
      | _ => rfl
    rw [hone] at hlocale
    refine ⟨hlocale, fun locale key => ?_⟩
    rw [List.foldl_cons, hmessages, htells, List.foldl_cons]

end Catalog

namespace Engine

variable {e : Engine} {c : Catalog}

theorem catalog_perform (h : e.setting.catalog = some c) {op : Operation}
    (hop : op.isPlain = true) : (op.perform e).2.setting.catalog = some (op.onCatalog c) := by
  have same {f : Engine} (hset : f.setting = e.setting) : f.setting.catalog = some c := by
    rw [hset, h]
  cases op with
  | use p => cases hop
  | hook a => cases hop
  | addMessages locale messages =>
    simp only [Operation.perform, Engine.addMessages, Engine.catalog, h]
    rfl
  | setLocale locale =>
    simp only [Operation.perform, Engine.setLocale, Engine.catalog, h]
    rfl
  | registerFragment name source =>
    simp only [Operation.perform, Engine.registerFragment, Engine.fragments]
    cases e.setting.fragments <;> exact h
  | removeFragment name =>
    simp only [Operation.perform, Engine.removeFragment, Engine.fragments]
    cases e.setting.fragments <;> exact h
  | registerLayout name source =>
    simp only [Operation.perform, Engine.registerLayout, Engine.layouts]
    cases e.setting.layouts <;> exact h
  | registerHelper name code =>
    simp only [Operation.perform, Engine.registerHelper, Engine.helpers]
    cases e.setting.helpers <;> exact h
  | compile template => exact same (e.setting_compile template)
  | render bound template data => exact same (e.setting_render bound template data)
  | renderValue bound template v => exact same (e.setting_renderValue bound template v)
  | clear => exact h

/-- The catalog of an engine is the one that its history comes to. -/
theorem catalog_after (h : e.setting.catalog = some c) {ops : List Operation}
    (hops : ∀ op ∈ ops, op.isPlain = true) :
    (e.after ops).setting.catalog = some (ops.foldl Operation.onCatalog c) := by
  induction ops generalizing e c with
  | nil => exact h
  | cons op ops ih =>
    obtain ⟨hop, hops⟩ := List.forall_mem_cons.mp hops
    exact ih (catalog_perform h hop) hops

/-- On an engine that translates, the message of a key is the last one in the active locale, or the
key itself. -/
theorem messageOf_after (cap : Nat) (locale : String) {ops : List Operation}
    (hops : ∀ op ∈ ops, op.isPlain = true) (key : String) :
    (((Engine.create cap).use (.messages locale)).after ops).setting.messageOf key
      = (lastMessage (activeLocale locale ops) key ops).getD key := by
  have hnew : ((Engine.create cap).use (.messages locale)).setting.catalog
      = some { locale := locale } := rfl
  obtain ⟨hlocale, hmessages⟩ := Catalog.foldl_onCatalog { locale := locale } ops
  have hmessage := hmessages (activeLocale locale ops) key
  rw [Setting.messageOf, catalog_after hnew hops]
  show (Catalog.messageIn? _ (ops.foldl Operation.onCatalog { locale := locale }).locale
    key).getD key = _
  rw [hlocale, hmessage]
  rfl

end Engine

/-! ### Rendering -/

section Rendering

variable (key : MarkerBody) {members : List (String × Json)}
  (hmembers : ∀ member ∈ members, member.1 ∉ [messageFunction, escapeName])
include hmembers

/-- On an engine that translates, a message marker is rendered as the message of its key, escaped. -/
theorem render_messageOf {e : Engine} {byKey : Nat}
    (h : e.Steady (messageHooks byKey)
      (Knows (key.print '@') ⟨messageParams, soleBody key.messageExpr⟩)) (bound : Nat) :
    (e.render (bound + 6) (some (key.print '@')) (.object members)).1
      = .ok (Text.escape (e.setting.messageOf key.text)) := by
  obtain ⟨escape, hescape⟩ := h.escape
  have hkey {name : String} (hname : name ∈ [messageFunction, escapeName]) :
      (e.store.heap.ofJson (.object members)).2.linkValue? name
        (openedLink (e.store.heap.ofJson (.object members)).1 false) = none := by
    refine linkValue?_ofJson e.store.heap ?_
    rintro _ ⟨⟩
    exact get?_ofList_eq_none fun member hmember heq => hmembers member hmember (heq ▸ hname)
  have hparse : parseProgram e.setting.params (e.setting.source (key.print '@'))
      = .ok ⟨messageParams, soleBody key.messageExpr⟩ := by
    rw [parseProgram_of_messages h.hooks, key.parse_messages]
  refine h.render_known hparse (key.isEmpty_print '@')
    (r := .ok (Text.escape (e.setting.messageOf key.text))) fun routine after _ hroutine hheap => ?_
  rw [← hheap] at hkey
  exact concludes_message key h.hooks hescape hroutine (hkey (.head _)) (hkey (.tail _ (.head _)))
    bound

/-- After any history, it is rendered as the last message of the key in the active locale, or as the
key. -/
theorem render_lastMessage (cap : Nat) (locale : String) {ops : List Operation}
    (hops : ∀ op ∈ ops, op.isPlain = true) (bound : Nat) :
    ((((Engine.create cap).use (.messages locale)).after ops).render (bound + 6)
        (some (key.print '@')) (.object members)).1
      = .ok (Text.escape ((lastMessage (activeLocale locale ops) key.text ops).getD key.text)) := by
  obtain ⟨byKey, hnew⟩ := steady_messages cap locale
    (Knows (key.print '@') ⟨messageParams, soleBody key.messageExpr⟩)
  have hparse {s : Setting} (hhooks : s.hooks = messageHooks byKey) :
      parseProgram s.params (s.source (key.print '@'))
        = .ok ⟨messageParams, soleBody key.messageExpr⟩ := by
    rw [parseProgram_of_messages hhooks, key.parse_messages]
  have h := hnew.after (fun s hhooks => knows_of_new (hparse hhooks)) hops
  rw [render_messageOf key hmembers h, Engine.messageOf_after cap locale hops]

end Rendering

/-- Adding messages to one locale, or for other keys, leaves the last message of a key in a
locale. -/
theorem lastMessage_addMessages {locale other key : String} {messages : List (String × String)}
    (h : other ≠ locale ∨ ∀ message ∈ messages, message.1 ≠ key) (ops more : List Operation) :
    lastMessage locale key (ops ++ .addMessages other messages :: more)
      = lastMessage locale key (ops ++ more) := by
  have hsaid (hkeys : ∀ message ∈ messages, message.1 ≠ key) (before : Option String) :
      said key before messages = before := by
    clear h
    induction messages with
    | nil => rfl
    | cons message messages ih =>
      obtain ⟨hmessage, hmessages⟩ := List.forall_mem_cons.mp hkeys
      rw [said, List.foldl_cons, if_neg hmessage]
      exact ih hmessages
  have htells (before : Option String) :
      (Operation.addMessages other messages).tells locale key before = before := by
    rw [Operation.tells]
    split
    · rename_i hlocale
      exact hsaid (h.resolve_left (not_not_intro hlocale)) before
    · rfl
  rw [lastMessage, lastMessage, List.foldl_append, List.foldl_cons, htells, List.foldl_append]

/-- **A message marker shows the live message.**  On every engine on which messages were installed
and nothing else, whatever it was used for since, a template that is one message marker is rendered
as the escaped message that was added last for the key in the locale that is active now, or as the
escaped key if there is none.  Adding messages changes nothing for other locales and other keys,
whichever locale is made active afterwards. -/
theorem render_message (cap : Nat) (locale : String) {ops : List Operation}
    (hops : ∀ op ∈ ops, op.isPlain = true) (key : MarkerBody) {members : List (String × Json)}
    (hmembers : ∀ member ∈ members, member.1 ∉ [messageFunction, escapeName]) {bound : Nat}
    (hbound : 6 ≤ bound) :
    let shows (ops : List Operation) :=
      ((((Engine.create cap).use (.messages locale)).after ops).render bound
        (some (key.print '@')) (.object members)).1
    shows ops
        = .ok (Text.escape ((lastMessage (activeLocale locale ops) key.text ops).getD key.text))
      ∧ ∀ other messages chosen, (other ≠ chosen ∨ ∀ message ∈ messages, message.1 ≠ key.text) →
        shows (ops ++ [.addMessages other messages, .setLocale chosen])
          = shows (ops ++ [.setLocale chosen]) := by
  obtain ⟨bound, rfl⟩ : ∃ b, bound = b + 6 := ⟨bound - 6, by omega⟩
  refine ⟨render_lastMessage key hmembers cap locale hops bound,
    fun other messages chosen hother => ?_⟩
  have hactive (more : List Operation) :
      activeLocale locale (ops ++ (more ++ [.setLocale chosen])) = chosen := by
    rw [activeLocale, ← List.append_assoc, List.foldl_concat]
    rfl
  have hshown (more : List Operation) (hmore : ∀ op ∈ more, op.isPlain = true) :=
    have hall : ∀ op ∈ ops ++ (more ++ [.setLocale chosen]), op.isPlain = true :=
      List.forall_mem_append.mpr ⟨hops, List.forall_mem_append.mpr
        ⟨hmore, List.forall_mem_singleton.mpr rfl⟩⟩
    render_lastMessage key hmembers cap locale hall bound
  have hadded := hshown [.addMessages other messages] (List.forall_mem_singleton.mpr rfl)
  have hplain := hshown [] nofun
  rw [hactive] at hadded hplain
  rw [List.singleton_append, lastMessage_addMessages hother] at hadded
  exact hadded.trans hplain.symm

/-- A key with a quote sign, brackets and a backslash in it. -/
def bracketedKey : MarkerBody where
  chars := ['"', '[', '[', '\\', ']', '&']
  nonempty := nofun
  front := by
    rintro c ⟨⟩
    decide
  back := by
    rintro c ⟨⟩
    decide
  noClose := by decide

/-- The template is rendered before its key has a message, and the locale changes twice. -/
def bracketedKeyOps : List Operation :=
  [.render 99 (some (bracketedKey.print '@')) (.object []),
    .addMessages "de" [(bracketedKey.text, "<alt>"), (bracketedKey.text, "<neu>")],
    .setLocale "fr", .setLocale "de"]

theorem render_message_bracketed :
    bracketedKey.print '@' = "[[@ \"[[\\]& ]]"
      ∧ ((((Engine.create 1).use (.messages "en")).after bracketedKeyOps).render 99
          (some (bracketedKey.print '@')) (.object [("x", .null)])).1 = .ok "&lt;neu&gt;" := by
  have hops : ∀ op ∈ bracketedKeyOps, op.isPlain = true := by decide
  have hmembers : ∀ member ∈ [("x", Json.null)], member.1 ∉ [messageFunction, escapeName] := by
    decide +kernel
  have hrender := render_message 1 "en" hops bracketedKey hmembers (by decide : 6 ≤ 99)
  have hmessage : Text.escape ((lastMessage (activeLocale "en" bracketedKeyOps) bracketedKey.text
      bracketedKeyOps).getD bracketedKey.text) = "&lt;neu&gt;" := by
    decide +kernel
  rw [← hmessage]
  exact ⟨by decide, hrender.1⟩

end Stencil
