import ZxProto.Terminal

/-!
# Runs of the terminal

Whatever is typed, and however the bytes arrive: the commands are run in the order in which the
lines were sent, each once, and the replies on the screen are the replies to them, in the same
order, up to the line that the client waits for.

* `Talk` — where the dialogue is in each phase of a call; `Talk.key`, `Talk.serve`,
  `Talk.callback`, its steps;
* `InDialogue.run` — runs of the local program, as long as no line and no output is too long;
* `terminal_dialogue` — the result over the two connections;
* `terminal_answers` — every line gets its reply.
-/

namespace ZxProto

open ByteMemory

variable {popen : List (List UInt8 × List UInt8) → List UInt8 → List UInt8}

/-! ## The server serves a line -/

/-- A line that can be sent: it fits the client's buffer, and has no zero. -/
structure Sendable (line : List UInt8) : Prop where
  length_le : line.length ≤ 228
  noNul : (0 : UInt8) ∉ line

theorem Sendable.le (h : Sendable line) : line.length ≤ inputStringSize :=
  h.length_le.trans (by decide)

/-- What is left of a call when the line was run. -/
inductive Left (t : Terminal) : Printed → List (Option TerminalCallback × ReqCallback) → Prop
  | error {text : List UInt8} : Left t (.error text) [(some .commandResultError, .error text)]
  | empty {object : List Property} (hnone : (object.find? fun p => p.key == 0x73) = none) :
      Left t (.response []) [(some .commandResultObject, .object 0 object),
        (some .commandResultSuccess, .response)]
  | object {object : List Property} {result : Property}
      (hsome : (object.find? fun p => p.key == 0x73) = some result)
      (hle : result.value.length ≤ 255) :
      Left t (.response (result.value.takeWhile fun byte => byte ≠ 0))
        [(some .commandResultObject, .object 0 object), (some .commandResultSuccess, .response)]
  | success : Left t (.response t.response) [(some .commandResultSuccess, .response)]

/-- A line is a request for `handle_command`. -/
theorem serveRequest_line {line : List UInt8} (hline : Sendable line) (shell : Shell) :
    serveRequest (terminalServices popen) (chainProperties (commandChain line)) shell =
      let served := handleCommand popen [chainProperties (commandChain line)] shell
      (served.1.answer, served.2) := by
  obtain ⟨id, hkey, hvalue, hempty, htext⟩ := chainProperties_commandChain hline.le
  have hfind : ((chainProperties (commandChain line)).find? fun p =>
      p.key == ProtoObjectPropertyKey.id.code) = some id := by
    by_cases hnil : line = []
    · rw [hempty hnil, List.find?_cons_of_pos (by rw [hkey]; exact BEq.rfl)]
    · obtain ⟨text, hkey', -, hchain⟩ := htext hnil
      rw [hchain, List.find?_cons_of_neg (by rw [hkey']; decide),
        List.find?_cons_of_pos (by rw [hkey]; exact BEq.rfl)]
  have hname : copyStrProperty id = commandName.bytes := by
    rw [copyStrProperty, hvalue]
    decide
  rw [serveRequest, hfind]
  dsimp only
  rw [hname]
  rfl

/-- The response with what a command printed. -/
theorem left_result {line : List UInt8} {hle : line.length ≤ inputStringSize}
    (output : List UInt8) (hshort : output.length ≤ 255) (t : Terminal) :
    Left t (.response (executionResult output).bytes)
      (expectedCalls (commandRequest line hle) (.objects [resultObject output])) := by
  have hcalls : expectedCalls (commandRequest line hle) (.objects [resultObject output]) =
      [(some .commandResultObject, .object 0 (resultObject output).properties),
        (some .commandResultSuccess, .response)] := rfl
  obtain ⟨hempty, hresult⟩ := chainProperties_result output
  rw [hcalls]
  by_cases hnil : (executionResult output).bytes = []
  · rw [hnil]
    refine .empty ?_
    show (chainProperties _).find? _ = none
    rw [hempty hnil, List.find?_nil]
  · obtain ⟨result, hkey, hvalue, hchain⟩ := hresult hnil
    have htext :
        result.value.takeWhile (fun byte => byte ≠ 0) = (executionResult output).bytes := by
      rw [hvalue]
      refine List.takeWhile_eq_self_iff.mpr fun byte hbyte => decide_eq_true fun hzero => ?_
      exact (executionResult output).noNul (hzero ▸ hbyte)
    rw [← htext]
    refine .object ?_ ?_
    · show (chainProperties _).find? _ = some result
      rw [hchain, List.find?_cons_of_pos (by rw [hkey]; exact BEq.rfl)]
    · rw [hvalue]
      exact ((List.takeWhile_sublist _).length_le.trans (List.length_take_le' _ _)).trans hshort

variable (popen) in
/-- What `handle_command` makes of a line. -/
theorem handleCommand_line {line : List UInt8} (hline : Sendable line) (shell : Shell) :
    let served := handleCommand popen [chainProperties (commandChain line)] shell
    served.2.executed = (exchange popen shell.executed line).2 ∧
      ((∀ run ∈ served.2.executed, run.2.length ≤ 255) →
        served.2.outside = shell.outside ∧
        ∀ t, Left t (exchange popen shell.executed line).1
          (expectedCalls (commandRequest line hline.le) served.1.answer)) := by
  intro served
  obtain ⟨id, hkey, -, hempty, htext⟩ := chainProperties_commandChain hline.le
  by_cases hnil : line = []
  · subst hnil
    have hserved : served = (⟨some noTextSupplied, []⟩, shell) := by
      show handleCommand popen [chainProperties (commandChain [])] shell = _
      rw [hempty rfl]
      unfold handleCommand
      dsimp only
      rw [List.find?_cons_of_neg (by rw [hkey]; decide), List.find?_nil]
    rw [hserved]
    exact ⟨rfl, fun _ => ⟨rfl, fun t => .error⟩⟩
  · obtain ⟨text, hkey', hvalue, hchain⟩ := htext hnil
    have htyped : copyStrProperty text = line := by
      rw [copyStrProperty, hvalue]
      refine List.takeWhile_eq_self_iff.mpr fun byte hbyte => decide_eq_true fun hzero => ?_
      exact hline.noNul (hzero ▸ hbyte)
    let output := popen shell.executed (commandLine line)
    have hserved : served = (⟨none, [resultObject output]⟩,
        { executed := shell.executed ++ [(commandLine line, output)]
          outside := shell.outside || executionSize < (commandLine line).length + 1 ||
            executionSize < (output.take executionSize).length + 1 }) := by
      show handleCommand popen [chainProperties (commandChain line)] shell = _
      rw [hchain]
      unfold handleCommand
      dsimp only
      rw [List.find?_cons_of_pos (by rw [hkey']; exact BEq.rfl)]
      dsimp only
      rw [htyped]
    have hexchange : exchange popen shell.executed line =
        (.response (executionResult output).bytes,
          shell.executed ++ [(commandLine line, output)]) := by
      rw [exchange, if_neg hnil]
    rw [hserved, hexchange]
    refine ⟨rfl, fun hshort => ⟨?_, fun t => left_result output ?_ t⟩⟩
    · have houtput : output.length ≤ 255 := hshort _ (List.mem_append_right _ List.mem_cons_self)
      have hcommand : (commandLine line).length = line.length + 5 := List.length_append
      have hread : (output.take executionSize).length ≤ output.length := List.length_take_le' _ _
      have hle := hline.length_le
      have hfits : ¬ executionSize < (commandLine line).length + 1 := by
        rw [executionSize]
        omega
      have hfits' : ¬ executionSize < (output.take executionSize).length + 1 := by
        rw [executionSize] at hread ⊢
        omega
      show (shell.outside || decide _ || decide _) = _
      rw [decide_eq_false hfits, decide_eq_false hfits', Bool.or_false, Bool.or_false]
    · exact hshort _ (List.mem_append_right _ List.mem_cons_self)

/-! ## A key -/

/-- The main loop did nothing that the dialogue depends on; it wrote outside of its array only if
the line was too long. -/
structure Terminal.Quiet (t t' : Terminal) : Prop where
  waitingForResponse : t'.waitingForResponse = t.waitingForResponse
  response : t'.response = t.response
  replies : t'.replies = t.replies
  sent : t'.sent = t.sent
  longest_le : t.longest ≤ t'.longest
  outside : t'.longest ≤ 228 → t'.outside = t.outside

/-- What a turn of the main loop can do. -/
inductive KeyStep (t : Terminal) : Script .spectrum TerminalCallback Terminal Unit → Prop
  | quiet {t' : Terminal} (h : t.Quiet t') : KeyStep t (.done () t')
  | sent (hwaiting : t.waitingForResponse = false) :
      KeyStep t (.request (commandRequest t.line t.length_line_le) fun _ => .done () t.sendCommand)

theorem replies_of_silent {t t' : Terminal} (printed : Printed) (hnone : printed.reply? = none)
    (hscreen : t'.screen = t.screen ++ [printed]) : t'.replies = t.replies := by
  rw [Terminal.replies, hscreen, List.filterMap_append, List.filterMap_cons_none hnone,
    List.filterMap_nil, List.append_nil]
  rfl

theorem Terminal.quiet_erase (t : Terminal) : t.Quiet t.erase := by
  rw [Terminal.erase]
  split
  · exact ⟨rfl, rfl, replies_of_silent .erase rfl rfl, rfl, le_rfl, fun _ => rfl⟩
  · exact ⟨rfl, rfl, rfl, rfl, le_rfl, fun _ => rfl⟩

theorem Terminal.quiet_type (t : Terminal) {key : UInt8} (hkey : key ≠ 0) :
    t.Quiet (t.type key hkey) := by
  rw [Terminal.type]
  split
  · exact ⟨rfl, rfl, replies_of_silent (.echo key) rfl rfl, rfl, le_max_left _ _,
      fun _ => rfl⟩
  · next hfull =>
      refine ⟨rfl, rfl, replies_of_silent (.echo key) rfl rfl, rfl, le_max_left _ _,
        fun hlongest => ?_⟩
      have hle : t.inputStringLen + 1 ≤ 228 := (le_max_right _ _).trans hlongest
      rw [inputStringSize] at hfull
      omega

theorem keyStep_key (key : UInt8) (t : Terminal) : KeyStep t (t.key key) := by
  have hself : t.Quiet t := ⟨rfl, rfl, rfl, rfl, le_rfl, fun _ => rfl⟩
  rw [Terminal.key]
  by_cases hwaiting : t.stopped ∨ t.waitingForResponse
  · rw [if_pos hwaiting]
    exact .quiet hself
  · rw [if_neg hwaiting]
    by_cases hdebounce : t.waiting
    · rw [if_pos hdebounce]
      exact .quiet ⟨rfl, rfl, rfl, rfl, le_rfl, fun _ => rfl⟩
    · rw [if_neg hdebounce]
      by_cases hnone : key = 0
      · rw [dif_pos hnone]
        exact .quiet hself
      · rw [dif_neg hnone]
        by_cases herase : key = 12
        · rw [if_pos herase]
          exact .quiet t.quiet_erase
        · rw [if_neg herase]
          by_cases henter : key = 13
          · rw [if_pos henter]
            split
            · exact .quiet ⟨rfl, rfl, replies_of_silent .enter rfl rfl, rfl, le_rfl,
                fun _ => rfl⟩
            · exact .sent (Bool.eq_false_iff.mpr fun h => hwaiting (Or.inr h))
          · rw [if_neg henter]
            exact .quiet (t.quiet_type hnone)

/-- A line that is short enough can be sent. -/
theorem Terminal.sendable_line {t : Terminal} (hlongest : t.longest ≤ 228) : Sendable t.line where
  length_le := by
    rw [Terminal.line, length_slice]
    exact t.longest_le.trans hlongest
  noNul hmem := by
    obtain ⟨i, hi, hget⟩ := List.getElem_of_mem hmem
    rw [Terminal.line, length_slice] at hi
    refine t.typed_ne i hi ?_
    rw [← hget]
    simp only [Terminal.line, getElem_slice, Nat.zero_add]

/-- The object with such a line fits the client's buffer. -/
theorem allocationSize_commandChain_le {line : List UInt8} (hline : Sendable line) :
    allocationSize .spectrum (commandChain line) ≤ 256 := by
  obtain ⟨id, -, hid, hempty, htext⟩ := chainProperties_commandChain hline.le
  have hname : commandName.bytes.length = 7 := rfl
  have hle := hline.length_le
  rw [allocationSize, countChain_eq]
  by_cases hnil : line = []
  · rw [hnil]
    decide
  · obtain ⟨text, -, hvalue, hchain⟩ := htext hnil
    have hsize : (bodyBytes (chainProperties (commandChain line))).length =
        line.length + 3 + (7 + 3) := by
      rw [hchain, bodyBytes_cons, bodyBytes_cons, bodyBytes_nil, List.append_nil,
        List.length_append, Property.length_bytes, Property.length_bytes, Property.size,
        Property.size, hid, hvalue, hname, sizeofProtoObjectProperty]
    have hcount : (chainProperties (commandChain line)).length = 2 := by
      rw [hchain]
      rfl
    have hoffsets : sizeofProtoObject + ((0 + UInt8.ofNat 2).toNat + 1) *
        Platform.spectrum.pointerSize + sizeofProtoObjectRequestHeader = 15 := rfl
    rw [hcount, hsize, UInt16.zero_add, UInt16.toNat_ofNat_of_lt'
      (show line.length + 3 + (7 + 3) < 65536 by omega)]
    dsimp only
    omega

/-! ## The dialogue -/

/-- Where the dialogue is: all lines have their replies, or the last one waits for its reply, and
was not run yet, or was. -/
inductive Talk (popen : List (List UInt8 × List UInt8) → List UInt8 → List UInt8) (t : Terminal)
    (w : Shell) : CallPhase .spectrum TerminalCallback → Prop
  | idle (hwaiting : t.waitingForResponse = false)
      (hreplies : t.replies = (dialogue popen t.sent).1)
      (hexecuted : w.executed = (dialogue popen t.sent).2) : Talk popen t w .idle
  | calling {before : List (List UInt8)} {line : List UInt8} (hline : Sendable line)
      (hsent : t.sent = before ++ [line]) (hwaiting : t.waitingForResponse = true)
      (hreplies : t.replies = (dialogue popen before).1)
      (hexecuted : w.executed = (dialogue popen before).2) :
      Talk popen t w (.calling (commandRequest line hline.le))
  | returning {before : List (List UInt8)} {line : List UInt8}
      {calls : List (Option TerminalCallback × ReqCallback)}
      (hsent : t.sent = before ++ [line]) (hwaiting : t.waitingForResponse = true)
      (hreplies : t.replies = (dialogue popen before).1)
      (hexecuted : w.executed = (dialogue popen t.sent).2)
      (hleft : Left t (exchange popen (dialogue popen before).2 line).1 calls) :
      Talk popen t w (.returning calls)

variable {t t' : Terminal} {w w' : Shell} {phase : CallPhase .spectrum TerminalCallback}

theorem Left.congr {reply : Printed} {calls : List (Option TerminalCallback × ReqCallback)}
    (h : Left t reply calls) (hresponse : t'.response = t.response) : Left t' reply calls := by
  cases h with
  | error => exact .error
  | empty hnone => exact .empty hnone
  | object hsome hle => exact .object hsome hle
  | success =>
      rw [← hresponse]
      exact .success

/-- A key that sends nothing. -/
theorem Talk.quiet (h : Talk popen t w phase) (hquiet : t.Quiet t') : Talk popen t' w phase := by
  cases h with
  | idle hwaiting hreplies hexecuted =>
      refine .idle (hquiet.waitingForResponse.trans hwaiting) ?_ ?_
      · rw [hquiet.replies, hquiet.sent]
        exact hreplies
      · rw [hquiet.sent]
        exact hexecuted
  | calling hline hsent hwaiting hreplies hexecuted =>
      exact .calling hline (hquiet.sent.trans hsent) (hquiet.waitingForResponse.trans hwaiting)
        (hquiet.replies.trans hreplies) hexecuted
  | returning hsent hwaiting hreplies hexecuted hleft =>
      refine .returning (hquiet.sent.trans hsent) (hquiet.waitingForResponse.trans hwaiting)
        (hquiet.replies.trans hreplies) ?_ (hleft.congr hquiet.response)
      rw [hquiet.sent]
      exact hexecuted

/-- A line is sent. -/
theorem Talk.send (h : Talk popen t w phase) (hwaiting : t.waitingForResponse = false)
    (hlongest : t.longest ≤ 228) :
    Talk popen t.sendCommand w (.calling (commandRequest t.line t.length_line_le)) := by
  cases h with
  | idle _ hreplies hexecuted =>
      exact .calling (t.sendable_line hlongest) rfl rfl
        ((replies_of_silent .enter rfl rfl).trans hreplies) hexecuted
  | calling _ _ hwaiting' => exact absurd (hwaiting.symm.trans hwaiting') Bool.false_ne_true
  | returning _ hwaiting' => exact absurd (hwaiting.symm.trans hwaiting') Bool.false_ne_true

theorem Terminal.outside_sendCommand (hlongest : t.longest ≤ 228) :
    t.sendCommand.outside = t.outside := by
  have hfits := allocationSize_commandChain_le (t.sendable_line hlongest)
  show (t.outside || decide _) = _
  rw [decide_eq_false (Nat.not_lt.mpr hfits), Bool.or_false]

/-- The handler is called. -/
theorem Talk.serve {r : Request .spectrum TerminalCallback} (h : Talk popen t w (.calling r)) :
    let served := serveRequest (terminalServices popen) r.object.properties w
    (∀ run ∈ served.2.executed, run.2.length ≤ 255) → served.2.outside = w.outside ∧
      Talk popen t served.2 (.returning (expectedCalls r served.1)) := by
  intro served hall
  cases h with
  | @calling before line hline hsent hwaiting hreplies hexecuted =>
      have hserved : served = _ := serveRequest_line hline w
      obtain ⟨hexecuted', hshort⟩ := handleCommand_line popen hline w
      have hdialogue := dialogue_concat popen before line
      have hdone : served.2.executed = (dialogue popen t.sent).2 := by
        rw [hserved, hsent, hdialogue, ← hexecuted]
        exact hexecuted'
      rw [hserved] at hall
      obtain ⟨houtside, hleft⟩ := hshort hall
      refine ⟨?_, .returning hsent hwaiting hreplies hdone ?_⟩
      · rw [hserved]
        exact houtside
      · rw [hserved, ← hexecuted]
        exact hleft t

/-- The last callback of a call prints the reply. -/
theorem Talk.reply {before : List (List UInt8)} {line : List UInt8} (printed : Printed)
    (hsent : t.sent = before ++ [line]) (hreplies : t.replies = (dialogue popen before).1)
    (hexecuted : w.executed = (dialogue popen t.sent).2)
    (hreply : printed.reply? = some (exchange popen (dialogue popen before).2 line).1)
    (hscreen : t'.screen = t.screen ++ [printed]) (hsent' : t'.sent = t.sent)
    (hwaiting' : t'.waitingForResponse = false) : Talk popen t' w .idle := by
  refine .idle hwaiting' ?_ ?_
  · rw [hsent', hsent, dialogue_concat popen, ← hreplies, Terminal.replies, hscreen,
      List.filterMap_append, List.filterMap_cons_some hreply, List.filterMap_nil]
    rfl
  · rw [hsent']
    exact hexecuted

/-- A callback is called. -/
theorem Talk.callback {call : Option TerminalCallback × ReqCallback}
    {calls : List (Option TerminalCallback × ReqCallback)}
    (h : Talk popen t w (.returning (call :: calls))) :
    (terminalCaller.call call t).outside = t.outside ∧
      Talk popen (terminalCaller.call call t) w
        (if calls.isEmpty then .idle else .returning calls) := by
  obtain ⟨before, line, hsent, hwaiting, hreplies, hexecuted, hleft⟩ :
      ∃ before line, t.sent = before ++ [line] ∧ t.waitingForResponse = true ∧
        t.replies = (dialogue popen before).1 ∧ w.executed = (dialogue popen t.sent).2 ∧
        Left t (exchange popen (dialogue popen before).2 line).1 (call :: calls) := by
    cases h with
    | returning hsent hwaiting hreplies hexecuted hleft =>
        exact ⟨_, _, hsent, hwaiting, hreplies, hexecuted, hleft⟩
  generalize hreply : (exchange popen (dialogue popen before).2 line).1 = reply at hleft
  cases hleft with
  | @error text =>
      exact ⟨rfl, Talk.reply (.error text) hsent hreplies hexecuted
        (congrArg some hreply.symm) rfl rfl rfl⟩
  | success =>
      exact ⟨rfl, Talk.reply (.response t.response) hsent hreplies hexecuted
        (congrArg some hreply.symm) rfl rfl rfl⟩
  | @empty object hnone =>
      have hcall : terminalCaller.call (some .commandResultObject, .object 0 object) t =
          { t with response := [] } := by
        show t.commandResultObject 0 object = _
        rw [Terminal.commandResultObject, if_pos rfl, hnone]
      rw [hcall]
      exact ⟨rfl, .returning hsent hwaiting hreplies hexecuted (hreply ▸ .success)⟩
  | @object object result hsome hle =>
      have hfits : ¬ responseSize < result.value.length + 1 := by
        rw [responseSize]
        omega
      have hcall : terminalCaller.call (some .commandResultObject, .object 0 object) t =
          { t with response := result.value.takeWhile fun byte => byte ≠ 0 } := by
        show t.commandResultObject 0 object = _
        rw [Terminal.commandResultObject, if_pos rfl, hsome]
        dsimp only
        rw [decide_eq_false hfits, Bool.or_false]
      rw [hcall]
      exact ⟨rfl, .returning hsent hwaiting hreplies hexecuted (hreply ▸ .success)⟩

/-! ## Runs -/

/-- No line was too long, and no command printed too much. -/
structure Within (t : Terminal) (w : Shell) : Prop where
  longest_le : t.longest ≤ 228
  output_le : ∀ run ∈ w.executed, run.2.length ≤ 255

/-- The dialogue, with nothing written outside of an array. -/
structure InDialogue (popen : List (List UInt8 × List UInt8) → List UInt8 → List UInt8)
    (l : LocalCall .spectrum TerminalCallback Terminal Shell) : Prop where
  client : l.app.outside = false
  server : l.user.outside = false
  talk : Talk popen l.app l.user l.phase

/-- A callback sends no line. -/
theorem sent_call (call : Option TerminalCallback × ReqCallback) (t : Terminal) :
    (terminalCaller.call call t).longest = t.longest ∧
      (terminalCaller.call call t).sent = t.sent := by
  obtain ⟨pointer, made⟩ := call
  cases pointer with
  | none => cases made <;> exact ⟨rfl, rfl⟩
  | some k =>
      cases made with
      | object index contents =>
          cases k with
          | commandResultObject =>
              show (t.commandResultObject index contents).longest = t.longest ∧
                (t.commandResultObject index contents).sent = t.sent
              rw [Terminal.commandResultObject]
              split
              · split <;> exact ⟨rfl, rfl⟩
              · exact ⟨rfl, rfl⟩
          | commandResultSuccess => exact ⟨rfl, rfl⟩
          | commandResultError => exact ⟨rfl, rfl⟩
      | response => cases k <;> exact ⟨rfl, rfl⟩
      | error text => cases k <;> exact ⟨rfl, rfl⟩
      | incomingRequest flags requestId => exact ⟨rfl, rfl⟩
      | incomingObject flags requestId contents => exact ⟨rfl, rfl⟩
      | incomingComplete flags requestId => exact ⟨rfl, rfl⟩

variable (popen) in
/-- The server forgets no command. -/
theorem executed_prefix_serveRequest (object : List Property) (w : Shell) :
    w.executed <+: (serveRequest (terminalServices popen) object w).2.executed := by
  rw [serveRequest]
  split
  · exact List.prefix_rfl
  · split
    · exact List.prefix_rfl
    · next service hservice =>
        rw [List.mem_singleton.mp (List.mem_of_find?_eq_some hservice)]
        show w.executed <+: (handleCommand popen [object] w).2.executed
        unfold handleCommand
        dsimp only
        split
        · exact List.prefix_rfl
        · exact List.prefix_append _ _

/-- The steps of the terminal: the client's code is its main loop. -/
def LocalStep.OfTerminal (step : LocalStep .spectrum TerminalCallback Terminal) : Prop :=
  ∀ f ∈ step.script?, ∃ key, f = Terminal.key key

/-- **A step keeps to the dialogue.** -/
theorem inDialogue_step (step : LocalStep .spectrum TerminalCallback Terminal)
    (hterminal : step.OfTerminal) (l : LocalCall .spectrum TerminalCallback Terminal Shell)
    (h : Within l.app l.user → InDialogue popen l) :
    let l' := l.step terminalCaller (terminalServices popen) step
    Within l'.app l'.user → InDialogue popen l' := by
  intro l' hwithin
  cases step with
  | script f =>
      obtain ⟨key, rfl⟩ := hterminal f List.mem_cons_self
      have hl' : l' = l.script (l.app.key key) := rfl
      rw [hl'] at hwithin ⊢
      have hkey := keyStep_key key l.app
      generalize l.app.key key = script at hkey hwithin
      cases hkey with
      | @quiet t' hquiet =>
          have hdialogue := h ⟨hquiet.longest_le.trans hwithin.longest_le, hwithin.output_le⟩
          exact ⟨(hquiet.outside hwithin.longest_le).trans hdialogue.client, hdialogue.server,
            hdialogue.talk.quiet hquiet⟩
      | sent hwaiting =>
          have hlongest : l.app.longest ≤ 228 := hwithin.longest_le
          have hdialogue := h ⟨hlongest, hwithin.output_le⟩
          exact ⟨(Terminal.outside_sendCommand hlongest).trans hdialogue.client, hdialogue.server,
            hdialogue.talk.send hwaiting hlongest⟩
  | serve =>
      obtain ⟨t, w, phase⟩ := l
      cases phase with
      | idle => exact h hwithin
      | returning calls => exact h hwithin
      | calling r =>
          have hgrows := executed_prefix_serveRequest popen r.object.properties w
          have hdialogue := h ⟨hwithin.longest_le, fun run hrun =>
            hwithin.output_le run (hgrows.subset hrun)⟩
          obtain ⟨houtside, htalk⟩ := hdialogue.talk.serve hwithin.output_le
          exact ⟨hdialogue.client, houtside.trans hdialogue.server, htalk⟩
  | callback =>
      obtain ⟨t, w, phase⟩ := l
      cases phase with
      | idle => exact h hwithin
      | calling r => exact h hwithin
      | returning calls =>
          cases calls with
          | nil => exact h hwithin
          | cons call calls =>
              have hdialogue := h ⟨(sent_call call t).1.symm.trans_le hwithin.longest_le,
                hwithin.output_le⟩
              obtain ⟨houtside, htalk⟩ := hdialogue.talk.callback
              exact ⟨houtside.trans hdialogue.client, hdialogue.server, htalk⟩

/-- Runs of the local program keep to the dialogue. -/
theorem InDialogue.run {steps : List (LocalStep .spectrum TerminalCallback Terminal)}
    (hterminal : ∀ step ∈ steps, step.OfTerminal)
    {l : LocalCall .spectrum TerminalCallback Terminal Shell} (h : InDialogue popen l) :
    let l' := Simulation.run (LocalCall.step terminalCaller (terminalServices popen)) steps l
    Within l'.app l'.user → InDialogue popen l' :=
  Simulation.Invariant.run inDialogue_step hterminal fun _ => h

/-! ## Over the two connections -/

/-- The screen and the commands, when these lines have been sent: each has its reply, or the last
one waits for it. -/
inductive Transcript (popen : List (List UInt8 × List UInt8) → List UInt8 → List UInt8)
    (t : Terminal) (w : Shell) : Prop
  | answered (hwaiting : t.waitingForResponse = false)
      (hreplies : t.replies = (dialogue popen t.sent).1)
      (hexecuted : w.executed = (dialogue popen t.sent).2)
  | waiting {before : List (List UInt8)} {line : List UInt8}
      (hwaiting : t.waitingForResponse = true) (hsent : t.sent = before ++ [line])
      (hreplies : t.replies = (dialogue popen before).1)
      (hexecuted : w.executed = (dialogue popen before).2 ∨
        w.executed = (dialogue popen t.sent).2)

theorem Talk.transcript (h : Talk popen t w phase) : Transcript popen t w := by
  cases h with
  | idle hwaiting hreplies hexecuted => exact .answered hwaiting hreplies hexecuted
  | calling _ hsent hwaiting hreplies hexecuted =>
      exact .waiting hwaiting hsent hreplies (Or.inl hexecuted)
  | returning hsent hwaiting hreplies hexecuted =>
      exact .waiting hwaiting hsent hreplies (Or.inr hexecuted)

/-- The client is on a Spectrum, the server is not. -/
def terminalSides : Side → Build
  | .left => .spectrum
  | .right => .pc

/-- The main loop makes a turn, or bytes arrive. -/
inductive TerminalAct
  | key (pressed : UInt8)
  | deliver (s : Side) (count : Nat)

/-- What happens at the two connections. -/
def TerminalAct.act {κS : Type} :
    TerminalAct → CallAct terminalSides TerminalCallback Terminal κS Shell
  | .key pressed => .script .left (Terminal.key pressed)
  | .deliver s count => .deliver s count

theorem TerminalAct.calm {κS : Type} (act : TerminalAct) :
    (act.act : CallAct terminalSides TerminalCallback Terminal κS Shell).Calm terminalCaller := by
  cases act with
  | key pressed => exact calm_key pressed
  | deliver s count => trivial

/-- The buffers of the example hold the object, and it has a property. -/
def TerminalBody (body : List UInt8) : Prop :=
  body.length ≤ 512 ∧ body ≠ []

/-- Every request has such an object: the name is never left out. -/
theorem TerminalAct.sends {κS : Type} (act : TerminalAct) :
    (act.act : CallAct terminalSides TerminalCallback Terminal κS Shell).Sends TerminalBody := by
  cases act with
  | deliver s count => trivial
  | key pressed =>
      intro (t : Terminal)
      show (t.key pressed).Sends _
      have hkey := keyStep_key pressed t
      generalize t.key pressed = script at hkey
      cases hkey with
      | quiet => trivial
      | sent =>
          have hbody := length_bodyBytes_commandChain t.length_line_le
          have hline := t.length_line_le
          rw [inputStringSize] at hline
          refine ⟨show (bodyBytes (chainProperties (commandChain t.line))).length ≤ 512 by omega,
            ?_⟩
          exact bodyBytes_commandChain_ne_nil t.length_line_le

/-- And so has every answer, if every command prints something. -/
theorem servicesSend_terminalServices
    (hprints : ∀ executed command, (executionResult (popen executed command)).bytes ≠ []) :
    ServicesSend (terminalServices popen) TerminalBody := by
  refine (servicesOk_terminalServices popen).sends (fun body hle hne => ⟨by omega, hne⟩) ?_
  intro service hmem objects shell response hresponse
  rw [List.mem_singleton.mp hmem] at hresponse
  change response ∈ (handleCommand popen objects shell).1.responses at hresponse
  unfold handleCommand at hresponse
  split at hresponse
  · exact absurd hresponse List.not_mem_nil
  · split at hresponse
    · exact absurd hresponse List.not_mem_nil
    · rw [List.mem_singleton.mp hresponse]
      exact ⟨(length_bodyBytes_result _).trans (by decide), bodyBytes_result_ne_nil (hprints _ _)⟩

theorem TerminalAct.script_eq {κS : Type} (act : TerminalAct) :
    ∀ f ∈ (act.act : CallAct terminalSides TerminalCallback Terminal κS Shell).script?,
      ∃ pressed, f = Terminal.key pressed := by
  cases act with
  | key pressed => exact fun f hf => ⟨pressed, List.mem_singleton.mp hf⟩
  | deliver s count => exact fun f hf => absurd hf List.not_mem_nil

/-- Steps that run the code of such acts, and no other. -/
theorem ofTerminal_of_scripts {κS : Type} {acts : List TerminalAct}
    {steps : List (LocalStep .spectrum TerminalCallback Terminal)}
    (hscripts : steps.flatMap LocalStep.script? = (acts.map TerminalAct.act :
      List (CallAct terminalSides TerminalCallback Terminal κS Shell)).flatMap ByteAct.script?) :
    ∀ step ∈ steps, step.OfTerminal := by
  intro step hstep f hf
  have hmem := (congrArg (f ∈ ·) hscripts).mp (List.mem_flatMap_of_mem hstep hf)
  obtain ⟨act, hact, hf'⟩ := List.mem_flatMap.mp hmem
  obtain ⟨pressed, -, rfl⟩ := List.mem_map.mp hact
  exact pressed.script_eq f hf'

variable (popen) in
theorem inDialogue_start (inputString : Memory) :
    InDialogue popen ⟨.start inputString, ⟨[], false⟩, .idle⟩ :=
  ⟨rfl, rfl, .idle rfl rfl rfl⟩

theorem terminalBody_seen (s : Side) (_ : (terminalSides s).decoder = .asm) : ¬ TerminalBody [] :=
  fun hbody => hbody.2 rfl

/-- **The terminal.**  Every command prints something.  Whatever is typed, and in whatever pieces
the bytes arrive, if no line was longer than 228 bytes and no command printed more than 255: neither
side has written outside of its arrays, the lines were run one after the other, each once, and the
screen shows their replies in this order, but for the line that the client waits for. -/
theorem terminal_dialogue {κS : Type} {address : Nat}
    {other : Application .pc (HandlerPointer κS) (ServerClientHandlers Shell)}
    (hother : other.Reliable)
    (hprints : ∀ executed command, (executionResult (popen executed command)).bytes ≠ [])
    {b : CallByteNet terminalSides TerminalCallback Terminal κS Shell} (hfresh : b.Fresh)
    {inputString : Memory}
    (hleft : (b.conn .left).app = .start .spectrum none none none 0 (.start inputString))
    (hright : (b.conn .right).app = .server .pc address (serverHandlersInit ⟨[], false⟩))
    (acts : List TerminalAct) :
    let b' := b.run (callSides terminalCaller (terminalServices popen) address other)
      (acts.map TerminalAct.act)
    let t := (b'.conn .left).app.app
    let w := (b'.conn .right).app.app.clientUser
    Within t w → t.outside = false ∧ w.outside = false ∧ Transcript popen t w := by
  intro b' t w hwithin
  obtain ⟨steps, henacts, hscripts⟩ :=
    exists_local (servicesOk_terminalServices popen) (servicesSend_terminalServices hprints)
      terminalBody_seen hother hfresh hleft hright
      (List.forall_mem_map.mpr fun (act : TerminalAct) (_ : act ∈ acts) => ⟨act.calm, act.sends⟩)
  have hrun := (inDialogue_start popen inputString).run (ofTerminal_of_scripts hscripts)
  have happ : _ = t := henacts.app.symm
  have huser : _ = w := henacts.user.symm
  obtain ⟨hclient, hserver, htalk⟩ := hrun (happ ▸ huser ▸ hwithin)
  exact ⟨happ ▸ hclient, huser ▸ hserver, happ ▸ huser ▸ htalk.transcript⟩

/-! ## Every line gets its reply -/

variable (popen) in
/-- Without the main loop, nothing is typed and no line is sent. -/
theorem sent_of_quiet {steps : List (LocalStep .spectrum TerminalCallback Terminal)}
    (hquiet : steps.flatMap LocalStep.script? = [])
    (l : LocalCall .spectrum TerminalCallback Terminal Shell) :
    let l' := Simulation.run (LocalCall.step terminalCaller (terminalServices popen)) steps l
    l'.app.longest = l.app.longest ∧ l'.app.sent = l.app.sent := by
  have hstep : ∀ step : LocalStep .spectrum TerminalCallback Terminal, step.script? = [] →
      ∀ l' : LocalCall .spectrum TerminalCallback Terminal Shell,
        l'.app.longest = l.app.longest ∧ l'.app.sent = l.app.sent →
          (l'.step terminalCaller (terminalServices popen) step).app.longest = l.app.longest ∧
            (l'.step terminalCaller (terminalServices popen) step).app.sent = l.app.sent := by
    intro step hscript l' h
    cases step with
    | script f => cases hscript
    | serve =>
        rw [LocalCall.step]
        split <;> exact h
    | callback =>
        rw [LocalCall.step]
        split
        · next call calls _ =>
            obtain ⟨hlongest, hsent⟩ := sent_call call l'.app
            exact ⟨hlongest.trans h.1, hsent.trans h.2⟩
        · exact h
  exact Simulation.Invariant.run hstep (List.flatMap_eq_nil_iff.mp hquiet) ⟨rfl, rfl⟩

/-- What was printed is what `popen` gives. -/
theorem output_le_run (hpopen : ∀ executed command, (popen executed command).length ≤ 255)
    (steps : List (LocalStep .spectrum TerminalCallback Terminal))
    {l : LocalCall .spectrum TerminalCallback Terminal Shell}
    (h : ∀ run ∈ l.user.executed, run.2.length ≤ 255) :
    let l' := Simulation.run (LocalCall.step terminalCaller (terminalServices popen)) steps l
    ∀ run ∈ l'.user.executed, run.2.length ≤ 255 := by
  have hserved : ∀ (object : List Property) (w : Shell),
      (∀ run ∈ w.executed, run.2.length ≤ 255) →
        ∀ run ∈ (serveRequest (terminalServices popen) object w).2.executed,
          run.2.length ≤ 255 := by
    intro object w hw
    rw [serveRequest]
    split
    · exact hw
    · split
      · exact hw
      · next service hservice =>
          rw [List.mem_singleton.mp (List.mem_of_find?_eq_some hservice)]
          show ∀ run ∈ (handleCommand popen [object] w).2.executed, _
          unfold handleCommand
          dsimp only
          split
          · exact hw
          · intro run hrun
            rcases List.mem_append.mp hrun with hold | hnew
            · exact hw run hold
            · rw [List.mem_singleton.mp hnew]
              exact hpopen _ _
  have hstep : ∀ step : LocalStep .spectrum TerminalCallback Terminal, True →
      ∀ l : LocalCall .spectrum TerminalCallback Terminal Shell,
        (∀ run ∈ l.user.executed, run.2.length ≤ 255) →
          ∀ run ∈ (l.step terminalCaller (terminalServices popen) step).user.executed,
            run.2.length ≤ 255 := by
    intro step _ l h
    cases step with
    | script f =>
        show ∀ run ∈ (l.script (f l.app)).user.executed, _
        generalize f l.app = script
        cases script with
        | done result app => exact h
        | request r next =>
            rw [LocalCall.script]
            split <;> exact h
    | serve =>
        rw [LocalCall.step]
        split
        · exact hserved _ _ h
        · exact h
    | callback =>
        rw [LocalCall.step]
        split <;> exact h
  exact Simulation.Invariant.run hstep (fun _ _ => trivial) h

/-- When the last call has returned, the dialogue is complete. -/
theorem Talk.answered (h : Talk popen t w phase) (hreturned : phase.Returned) :
    t.waitingForResponse = false ∧ t.replies = (dialogue popen t.sent).1 ∧
      w.executed = (dialogue popen t.sent).2 := by
  cases h with
  | idle hwaiting hreplies hexecuted => exact ⟨hwaiting, hreplies, hexecuted⟩
  | calling => exact hreturned.elim
  | @returning before line calls _ _ _ _ hleft =>
      generalize (exchange popen (dialogue popen before).2 line).1 = reply at hleft
      cases hleft <;> exact hreturned.elim

/-- **Every line gets its reply.**  The buffers hold 512 bytes, as those of the example do, and
every command prints something, but not more than 255 bytes.  Whatever is typed, and in
whatever pieces the bytes arrive, if no line was longer than 228 bytes, then once the server has
taken the bytes in flight, and then the client, the client does not wait any more, all lines
that were sent were run, in this order, and the screen shows the replies to all of them. -/
theorem terminal_answers {κS : Type} {address : Nat}
    {other : Application .pc (HandlerPointer κS) (ServerClientHandlers Shell)}
    (hother : other.Reliable)
    (hpopen : ∀ executed command, (popen executed command).length ≤ 255)
    (hprints : ∀ executed command, (executionResult (popen executed command)).bytes ≠ [])
    {b : CallByteNet terminalSides TerminalCallback Terminal κS Shell} (hfresh : b.Fresh)
    (hroomy : b.Roomy 512) {inputString : Memory}
    (hleft : (b.conn .left).app = .start .spectrum none none none 0 (.start inputString))
    (hright : (b.conn .right).app = .server .pc address (serverHandlersInit ⟨[], false⟩))
    (acts : List TerminalAct) :
    let sides := callSides terminalCaller (terminalServices popen) address other
    let b' := b.run sides (acts.map TerminalAct.act)
    let sent := (b'.conn .left).app.app.sent
    (b'.conn .left).app.app.longest ≤ 228 →
      ∃ requests replies,
        let b'' := b'.run sides (List.replicate requests (.deliver .right 1) ++
          List.replicate replies (.deliver .left 1))
        let t := (b''.conn .left).app.app
        let w := (b''.conn .right).app.app.clientUser
        t.sent = sent ∧ t.waitingForResponse = false ∧ t.replies = (dialogue popen sent).1 ∧
          w.executed = (dialogue popen sent).2 := by
  intro sides b' sent hlongest
  have hok := servicesOk_terminalServices popen
  have hsends := servicesSend_terminalServices hprints
  obtain ⟨(steps : List (LocalStep .spectrum TerminalCallback Terminal)), henacts, hscripts⟩ :=
    exists_local hok hsends terminalBody_seen hother hfresh hleft hright (List.forall_mem_map.mpr
      fun (act : TerminalAct) (_ : act ∈ acts) => ⟨act.calm, act.sends⟩)
  obtain ⟨requests, replies, (steps' : List (LocalStep .spectrum TerminalCallback Terminal)),
    hquiet, hreached, hreturned⟩ :=
    exists_returned other hok hsends terminalBody_seen (fun _ hbody => hbody.1) hother henacts
      (hroomy.run _)
  refine ⟨requests, replies, ?_⟩
  intro b'' t w
  obtain ⟨hsame, hsent⟩ := sent_of_quiet popen hquiet
    (Simulation.run (LocalCall.step terminalCaller (terminalServices popen)) steps
      ⟨.start inputString, ⟨[], false⟩, .idle⟩)
  have hscripts' : (steps ++ steps').flatMap LocalStep.script? = (acts.map TerminalAct.act :
      List (CallAct terminalSides TerminalCallback Terminal κS Shell)).flatMap ByteAct.script? :=
    List.flatMap_append.trans
      ((congrArg₂ (· ++ ·) hscripts hquiet).trans (List.append_nil _))
  have hprinted : ∀ run ∈ (Shell.mk [] false).executed, run.2.length ≤ 255 :=
    fun run hrun => absurd hrun List.not_mem_nil
  have houtput := output_le_run hpopen (steps ++ steps')
    (l := ⟨.start inputString, ⟨[], false⟩, .idle⟩) hprinted
  have hdialogue := (inDialogue_start popen inputString).run (ofTerminal_of_scripts hscripts')
  dsimp only at houtput hdialogue
  rw [Simulation.run_append] at houtput hdialogue
  have happ : _ = (b'.conn .left).app.app := henacts.app.symm
  have happ' : _ = t := hreached.app.symm
  have huser' : _ = w := hreached.user.symm
  obtain ⟨-, -, htalk⟩ := hdialogue ⟨hsame.trans_le (happ ▸ hlongest), houtput⟩
  obtain ⟨hwaiting, hreplies, hexecuted⟩ := htalk.answered hreturned
  have hsent' : t.sent = sent :=
    (congrArg Terminal.sent hreached.app).trans
      (hsent.trans (congrArg Terminal.sent henacts.app.symm))
  rw [← hsent']
  exact ⟨rfl, happ' ▸ hwaiting, happ' ▸ hreplies, huser' ▸ happ' ▸ hexecuted⟩

/-- A shell in which a command prints a dollar sign, its first two letters, and how many ran
before it. -/
def letters (executed : List (List UInt8 × List UInt8)) (command : List UInt8) : List UInt8 :=
  0x24 :: (command.take 2 ++ [0x30 + UInt8.ofNat executed.length])

/-- The two, with nothing received. -/
def terminalNet : CallByteNet terminalSides TerminalCallback Terminal Empty Shell where
  conn
    | .left => .init 2048 512 (fun _ => 0) ⟨0, []⟩
        (.start .spectrum none none none 0 (.start fun _ => 0)) 0
    | .right => .init 2048 512 (fun _ => 0) ⟨0, []⟩
        (.server .pc 8192 (serverHandlersInit ⟨[], false⟩)) 0
  taken _ := 0

/-- `ls` is typed and sent, then an empty line; the first reply comes in two pieces, with a key
pressed between them. -/
def terminalActs : List TerminalAct :=
  [.key 0x6C, .key 0, .key 0x73, .key 0, .key 13, .deliver .right 100, .deliver .left 9, .key 13,
    .deliver .left 60, .key 0, .key 13, .deliver .right 100, .deliver .left 60]

theorem fresh_terminalNet : terminalNet.Fresh := by
  constructor
  · intro s
    cases s <;> exact Conn.fresh_init _ _ _ _ _ _
  · intro s
    cases s with
    | left => exact fun _ => ⟨by decide, by decide, by decide⟩
    | right => exact Conn.placed_of_c rfl _
  · intro s
    cases s <;> rfl
  · intro s
    cases s <;> rfl
  · exact fun _ => rfl

theorem letters_prints (executed : List (List UInt8 × List UInt8)) (command : List UInt8) :
    (executionResult (letters executed command)).bytes ≠ [] := by
  have hcons : ∀ rest : List UInt8, (executionResult (0x24 :: rest)).bytes =
      0x24 :: (rest.take 255).takeWhile fun byte => byte ≠ 0 := fun _ => rfl
  rw [letters, hcons]
  exact List.cons_ne_nil _ _

theorem terminal_dialogue_two :
    let b' := terminalNet.run (callSides terminalCaller (terminalServices letters) 8192
      (.quiet _ _ _)) (terminalActs.map TerminalAct.act)
    let t := (b'.conn .left).app.app
    let w := (b'.conn .right).app.app.clientUser
    (t.outside = false ∧ w.outside = false ∧ Transcript letters t w) ∧
      t.replies = [.response [0x24, 0x6C, 0x73, 0x30], .error noTextSupplied.bytes] := by
  exact ⟨terminal_dialogue (fun _ => rfl) letters_prints fresh_terminalNet rfl rfl terminalActs
    ⟨by decide +kernel, by decide +kernel⟩, by decide +kernel⟩

theorem length_letters (executed : List (List UInt8 × List UInt8)) (command : List UInt8) :
    (letters executed command).length ≤ 255 := by
  have htake : (command.take 2).length ≤ 2 := List.length_take_le _ _
  rw [letters, List.length_cons, List.length_append, List.length_singleton]
  omega

theorem terminal_answers_of_pending :
    let sides := callSides terminalCaller (terminalServices letters) 8192 (.quiet _ _ _)
    let b' := terminalNet.run sides ((terminalActs.take 6).map TerminalAct.act)
    let sent := (b'.conn .left).app.app.sent
    (∃ requests replies,
      let b'' := b'.run sides (List.replicate requests (.deliver .right 1) ++
        List.replicate replies (.deliver .left 1))
      let t := (b''.conn .left).app.app
      let w := (b''.conn .right).app.app.clientUser
      t.sent = sent ∧ t.waitingForResponse = false ∧ t.replies = (dialogue letters sent).1 ∧
        w.executed = (dialogue letters sent).2) ∧
      sent = [[0x6C, 0x73]] ∧ (b'.conn .left).app.app.waitingForResponse = true := by
  have hroomy : terminalNet.Roomy 512 := by
    intro s
    cases s <;> decide
  exact ⟨terminal_answers (fun _ => rfl) length_letters letters_prints fresh_terminalNet hroomy
    rfl rfl (terminalActs.take 6) (by decide +kernel), by decide +kernel, by decide +kernel⟩

end ZxProto
