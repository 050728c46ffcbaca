import Mathlib.Data.List.TakeWhile
import ZxProto.CallReturn
import ZxProto.Lookup

/-!
# The terminal

`examples/terminal`: a client that sends the lines that are typed, and a server that runs each as
a command and sends what it printed.

* `Terminal` — the variables of the client; `Terminal.key`, a turn of its main loop, and
  `terminalCaller`, its callbacks;
* `Shell`, `handleCommand` — the server's handler, over what `popen` gives;
* `exchange`, `dialogue` — what the two are for: one line after the other is run.
-/

namespace ZxProto

open ByteMemory

/-! ## The client -/

/-- What `printf` has printed. -/
inductive Printed
  | erase
  | enter
  | echo (key : UInt8)
  | response (text : List UInt8)
  | error (text : List UInt8)
deriving DecidableEq

/-- The characters of a text. -/
def characters (text : List Char) : List UInt8 :=
  text.map fun c => UInt8.ofNat c.toNat

/-- `"\n>_"`. -/
def promptText : List UInt8 := 0x0A :: characters ['>', '_']

/-- The bytes on the screen. -/
def Printed.bytes : Printed → List UInt8
  | .erase => [0x08, 0x20, 0x08, 0x08, 0x5F]
  | .enter => [0x08, 0x20]
  | .echo key => [0x08, key, 0x5F]
  | .response text =>
      0x0A :: characters ['R', 'e', 's', 'p', 'o', 'n', 's', 'e', ':'] ++ text ++ promptText
  | .error text => 0x0A :: characters ['E', 'r', 'r', 'o', 'r', ':', ' '] ++ text ++ promptText

/-- The reply to a line. -/
def Printed.reply? : Printed → Option Printed
  | .response text => some (.response text)
  | .error text => some (.error text)
  | _ => none

/-- `sizeof(input_string)`. -/
def inputStringSize : Nat := 256

/-- `sizeof(response)`. -/
def responseSize : Nat := 256

/-- The static variables of the client, and `waiting` of `main`; `inputString` is the memory from
the array on, and `response` the string that the array shows.  What follows when a byte outside
of an array was written is not modelled, but that it was. -/
structure Terminal where
  response : List UInt8
  inputString : Memory
  inputStringLen : Nat
  waitingForResponse : Bool
  waiting : Bool
  /-- The main loop has ended. -/
  stopped : Bool
  /-- A byte outside of an array was written. -/
  outside : Bool
  screen : List Printed
  /-- Ghost: the lines that were sent. -/
  sent : List (List UInt8)
  /-- Ghost: the length that the longest line so far has had. -/
  longest : Nat
  typed_ne : ∀ i < inputStringLen, inputString i ≠ 0
  len_le : inputStringLen ≤ inputStringSize
  longest_le : inputStringLen ≤ longest

/-- The functions whose addresses the client gives to `proto_req_send_request`. -/
inductive TerminalCallback
  | commandResultObject
  | commandResultSuccess
  | commandResultError
deriving DecidableEq

/-- `command_result_object`. -/
def Terminal.commandResultObject (index : UInt8) (object : List Property) (t : Terminal) :
    Terminal :=
  if index = 0 then
    match object.find? fun p => p.key == 0x73 with
    | some responseStr =>
        { t with
          response := responseStr.value.takeWhile fun byte => byte ≠ 0
          -- the value, and a zero behind it
          outside := t.outside || responseSize < responseStr.value.length + 1 }
    | none => { t with response := [] }
  else
    t

/-- `command_result_success`. -/
def Terminal.commandResultSuccess (t : Terminal) : Terminal :=
  { t with screen := t.screen ++ [.response t.response], waitingForResponse := false }

/-- `command_result_error`. -/
def Terminal.commandResultError (error : List UInt8) (t : Terminal) : Terminal :=
  { t with screen := t.screen ++ [.error error], waitingForResponse := false }

/-- The client, as its callbacks see it. -/
def terminalCaller : Caller TerminalCallback Terminal where
  requestObject
    | .commandResultObject, index, object, t => t.commandResultObject index object
    | _, _, _, t => t
  response
    | .commandResultSuccess, t => t.commandResultSuccess
    | _, t => t
  error
    | .commandResultError, error, t => t.commandResultError error
    | _, _, t => t
  waiting t := t.waitingForResponse = true
  waiting_requestObject {k index object t} hwaiting := by
    cases k with
    | commandResultObject =>
        show (t.commandResultObject index object).waitingForResponse = true
        rw [Terminal.commandResultObject]
        split
        · split <;> exact hwaiting
        · exact hwaiting
    | commandResultSuccess => exact hwaiting
    | commandResultError => exact hwaiting

/-- `"command"`. -/
def commandName : CString where
  bytes := characters ['c', 'o', 'm', 'm', 'a', 'n', 'd']
  noNul := by decide

/-- The properties of `send_command`, from the last one on. -/
def commandChain (line : List UInt8) : List ProtoStackObjectProperty :=
  [declareVariableProperty 0x43 line (UInt16.ofNat line.length) (toNat_ofNat_length_le line),
    declareStrProperty ProtoObjectPropertyKey.id.code commandName]

theorem length_commandChain (line : List UInt8) :
    (chainProperties (commandChain line)).length ≤ 2 :=
  length_chainProperties_le (commandChain line)

/-- The properties on the wire: an empty line is left out. -/
theorem chainProperties_commandChain {line : List UInt8} (hle : line.length ≤ inputStringSize) :
    ∃ id : Property, id.key = ProtoObjectPropertyKey.id.code ∧ id.value = commandName.bytes ∧
      (line = [] → chainProperties (commandChain line) = [id]) ∧
      (line ≠ [] → ∃ text : Property, text.key = 0x43 ∧ text.value = line ∧
        chainProperties (commandChain line) = [text, id]) := by
  refine ⟨(declareStrProperty ProtoObjectPropertyKey.id.code commandName).toProperty, rfl, rfl,
    fun hnil => ?_, fun hne => ?_⟩
  · subst hnil
    rfl
  · have hlength : (UInt16.ofNat line.length).toNat = line.length :=
      UInt16.toNat_ofNat_of_lt' (hle.trans_lt (by decide))
    have hvalueSize : UInt16.ofNat line.length ≠ 0 := by
      intro hzero
      rw [hzero] at hlength
      exact hne (List.length_eq_zero_iff.mp hlength.symm)
    refine ⟨ProtoStackObjectProperty.toProperty _, rfl, ?_,
      @chainProperties_cons_of_ne ⟨0x43, line, UInt16.ofNat line.length, _⟩
        hvalueSize _⟩
    show line.take (UInt16.ofNat line.length).toNat = line
    rw [hlength, List.take_length]

theorem length_bodyBytes_commandChain {line : List UInt8} (hle : line.length ≤ inputStringSize) :
    (bodyBytes (chainProperties (commandChain line))).length ≤ line.length + 13 := by
  obtain ⟨id, -, hid, hempty, htext⟩ := chainProperties_commandChain hle
  have hname : commandName.bytes.length = 7 := rfl
  by_cases hnil : line = []
  · rw [hempty hnil, bodyBytes_cons, bodyBytes_nil, List.append_nil, Property.length_bytes,
      Property.size, hid, hname, sizeofProtoObjectProperty]
    omega
  · obtain ⟨text, -, hvalue, hchain⟩ := htext hnil
    have hlength : (bodyBytes [text, id]).length =
        text.value.length + 3 + (id.value.length + 3) := by
      rw [bodyBytes_cons, bodyBytes_cons, bodyBytes_nil, List.append_nil, List.length_append,
        Property.length_bytes, Property.length_bytes]
      rfl
    rw [hchain, hlength, hid, hvalue, hname]

theorem bodyBytes_cons_ne_nil (p : Property) (props : List Property) :
    bodyBytes (p :: props) ≠ [] := by
  intro hnil
  have hlength := congrArg List.length hnil
  rw [bodyBytes_cons, List.length_append, Property.length_bytes, Property.size,
    sizeofProtoObjectProperty, List.length_nil] at hlength
  omega

/-- The name of the command is never left out. -/
theorem bodyBytes_commandChain_ne_nil {line : List UInt8} (hle : line.length ≤ inputStringSize) :
    bodyBytes (chainProperties (commandChain line)) ≠ [] := by
  obtain ⟨id, -, -, hempty, htext⟩ := chainProperties_commandChain hle
  by_cases hnil : line = []
  · rw [hempty hnil]
    exact bodyBytes_cons_ne_nil _ _
  · obtain ⟨text, -, -, hchain⟩ := htext hnil
    rw [hchain]
    exact bodyBytes_cons_ne_nil _ _

theorem size_commandChain {line : List UInt8} (hle : line.length ≤ inputStringSize) :
    (bodyBytes (chainProperties (commandChain line))).length ≤ 65533 := by
  have hbody := length_bodyBytes_commandChain hle
  rw [inputStringSize] at hle
  omega

/-- The request of `send_command`. -/
def commandRequest (line : List UInt8) (hle : line.length ≤ inputStringSize) :
    Request .spectrum TerminalCallback where
  object :=
    { object := protoObjectAssign .spectrum Platform.spectrum.stack 0xE000 256 (commandChain line)
        ((length_commandChain line).trans (by decide))
      properties := chainProperties (commandChain line)
      represents := represents_protoObjectAssign _ _ _ _ _ _
        ((size_commandChain hle).trans_lt (by decide))
      size_le := size_commandChain hle }
  objectCallback := some .commandResultObject
  cb := some .commandResultSuccess
  err := some .commandResultError

/-- The line that is typed. -/
def Terminal.line (t : Terminal) : List UInt8 :=
  slice t.inputString 0 t.inputStringLen

theorem Terminal.length_line_le (t : Terminal) : t.line.length ≤ inputStringSize := by
  rw [Terminal.line, length_slice]
  exact t.len_le

/-- `"exit"`. -/
def exitText : List UInt8 := characters ['e', 'x', 'i', 't']

/-- The key 12. -/
def Terminal.erase (t : Terminal) : Terminal :=
  if t.inputStringLen ≠ 0 then
    { t with
      screen := t.screen ++ [.erase]
      inputStringLen := t.inputStringLen - 1
      waiting := true
      typed_ne := fun i hi => t.typed_ne i (by omega)
      len_le := by have := t.len_le; omega
      longest_le := by have := t.longest_le; omega }
  else
    { t with waiting := true }

/-- A character is typed. -/
theorem Terminal.typed_ne_store (t : Terminal) {key : UInt8} (hkey : key ≠ 0) :
    ∀ i < t.inputStringLen + 1, store t.inputString ⟨t.inputStringLen, [key]⟩ i ≠ 0 := by
  intro i hi
  by_cases hlast : i = t.inputStringLen
  · subst hlast
    have hself := slice_store_self t.inputString t.inputStringLen [key]
    rw [List.length_singleton, slice_succ, slice_zero] at hself
    rw [List.head_eq_of_cons_eq hself]
    exact hkey
  · have havoids : (⟨t.inputStringLen, [key]⟩ : Store).Avoids 0 t.inputStringLen :=
      Or.inl (Nat.zero_add _).le
    rw [store_apply_of_avoids t.inputString havoids (Nat.zero_le i) (by omega)]
    exact t.typed_ne i (by omega)

/-- The other keys. -/
def Terminal.type (key : UInt8) (hkey : key ≠ 0) (t : Terminal) : Terminal :=
  if hroom : t.inputStringLen < inputStringSize then
    { t with
      screen := t.screen ++ [.echo key]
      inputString := store t.inputString ⟨t.inputStringLen, [key]⟩
      inputStringLen := t.inputStringLen + 1
      waiting := true
      longest := max t.longest (t.inputStringLen + 1)
      typed_ne := t.typed_ne_store hkey
      len_le := hroom
      longest_le := le_max_right _ _ }
  else
    -- the array is full
    { t with
      screen := t.screen ++ [.echo key]
      waiting := true
      outside := true
      longest := max t.longest (t.inputStringLen + 1)
      longest_le := t.longest_le.trans (le_max_left _ _) }

/-- The client behind `send_command`. -/
def Terminal.sendCommand (t : Terminal) : Terminal :=
  { t with
    screen := t.screen ++ [.enter]
    inputStringLen := 0
    waitingForResponse := true
    waiting := true
    -- the properties are laid out in a buffer of 256 bytes
    outside := t.outside || 256 < allocationSize .spectrum (commandChain t.line)
    sent := t.sent ++ [t.line]
    typed_ne := fun i hi => absurd hi (Nat.not_lt_zero i)
    len_le := Nat.zero_le _
    longest_le := Nat.zero_le _ }

/-- A turn of the main loop behind `proto_req_client_process`, with what `in_Inkey` returns. -/
def Terminal.key (key : UInt8) (t : Terminal) : Script .spectrum TerminalCallback Terminal Unit :=
  if t.stopped ∨ t.waitingForResponse then
    .done () t
  else if t.waiting then
    .done () { t with waiting := key ≠ 0 }
  else if hkey : key = 0 then
    .done () t
  else if key = 12 then
    .done () t.erase
  else if key = 13 then
    -- the array is compared, however long the line is
    if slice t.inputString 0 exitText.length = exitText then
      .done () { t with screen := t.screen ++ [.enter], stopped := true }
    else
      .request (commandRequest t.line t.length_line_le) fun _ => .done () t.sendCommand
  else
    .done () (t.type key hkey)

/-- The client when its main loop begins; the array holds what `gets` left there. -/
def Terminal.start (inputString : Memory) : Terminal where
  response := []
  inputString := inputString
  inputStringLen := 0
  waitingForResponse := false
  waiting := false
  stopped := false
  outside := false
  screen := []
  sent := []
  longest := 0
  typed_ne _ hi := absurd hi (Nat.not_lt_zero _)
  len_le := Nat.zero_le _
  longest_le := le_rfl

/-- The replies on the screen. -/
def Terminal.replies (t : Terminal) : List Printed :=
  t.screen.filterMap Printed.reply?

/-- A turn of the main loop is one that a caller may make. -/
theorem calm_key (key : UInt8) (t : Terminal) : terminalCaller.Calm t (t.key key) := by
  rw [Terminal.key]
  by_cases hwaiting : t.stopped ∨ t.waitingForResponse
  · rw [if_pos hwaiting]
    exact .stay id
  · rw [if_neg hwaiting]
    by_cases hdebounce : t.waiting
    · rw [if_pos hdebounce]
      exact .stay id
    · rw [if_neg hdebounce]
      by_cases hnone : key = 0
      · rw [dif_pos hnone]
        exact .stay id
      · rw [dif_neg hnone]
        by_cases herase : key = 12
        · rw [if_pos herase]
          refine .stay fun h => ?_
          rw [Terminal.erase]
          split <;> exact h
        · rw [if_neg herase]
          by_cases henter : key = 13
          · rw [if_pos henter]
            split
            · exact .stay id
            · exact .call ⟨Option.some_ne_none _, Option.some_ne_none _,
                (length_commandChain t.line).trans (by decide)⟩
                (fun h => hwaiting (Or.inr h)) rfl rfl
          · rw [if_neg henter]
            refine .stay fun h => ?_
            rw [Terminal.type]
            split <;> exact h

/-! ## The server -/

/-- What the server has run, and what each command printed; and whether a byte outside of an
array was written. -/
structure Shell where
  executed : List (List UInt8 × List UInt8)
  outside : Bool

/-- `"No text supplied"`. -/
def noTextSupplied : CString where
  bytes := characters ['N', 'o', ' ', 't', 'e', 'x', 't', ' ', 's', 'u', 'p', 'p', 'l', 'i', 'e',
    'd']
  noNul := by decide

/-- What `sprintf` makes of a command: `"%s 2>&1"`. -/
def commandLine (text : List UInt8) : List UInt8 :=
  text ++ characters [' ', '2', '>', '&', '1']

/-- `sizeof(cmd)`, and `sizeof(execution_result)`. -/
def executionSize : Nat := 256

/-- The string in `execution_result` behind `fread`. -/
def executionResult (output : List UInt8) : CString where
  bytes := (output.take executionSize).takeWhile fun byte => byte ≠ 0
  noNul := fun hmem => by simpa using List.mem_takeWhile_imp hmem

theorem length_executionResult_le (output : List UInt8) :
    (executionResult output).bytes.length ≤ executionSize :=
  (List.takeWhile_sublist _).length_le.trans (List.length_take_le _ _)

/-- The response of `handle_command`: an empty result is left out. -/
theorem chainProperties_result (output : List UInt8) :
    ((executionResult output).bytes = [] →
      chainProperties [declareStrProperty 0x73 (executionResult output)] = []) ∧
    ((executionResult output).bytes ≠ [] → ∃ result : Property, result.key = 0x73 ∧
      result.value = (executionResult output).bytes ∧
      chainProperties [declareStrProperty 0x73 (executionResult output)] = [result]) := by
  have hlength : (UInt16.ofNat (executionResult output).bytes.length).toNat =
      (executionResult output).bytes.length :=
    UInt16.toNat_ofNat_of_lt' ((length_executionResult_le output).trans_lt (by decide))
  constructor
  · intro hnil
    rw [chainProperties_cons_of_empty]
    · rfl
    · show UInt16.ofNat (executionResult output).bytes.length = 0
      rw [hnil]
      rfl
  · intro hne
    have hvalueSize : (declareStrProperty 0x73 (executionResult output)).valueSize ≠ 0 := by
      intro hzero
      have hnone : (UInt16.ofNat (executionResult output).bytes.length).toNat = 0 :=
        congrArg UInt16.toNat hzero
      exact hne (List.length_eq_zero_iff.mp (hlength.symm.trans hnone))
    refine ⟨(declareStrProperty 0x73 (executionResult output)).toProperty, rfl, ?_,
      chainProperties_cons_of_ne hvalueSize []⟩
    show (executionResult output).bytes.take (UInt16.ofNat _).toNat = _
    rw [hlength, List.take_length]

theorem length_bodyBytes_result (output : List UInt8) :
    (bodyBytes (chainProperties [declareStrProperty 0x73 (executionResult output)])).length ≤
      259 := by
  obtain ⟨hempty, hresult⟩ := chainProperties_result output
  by_cases hnil : (executionResult output).bytes = []
  · rw [hempty hnil]
    decide
  · obtain ⟨result, -, hvalue, hchain⟩ := hresult hnil
    have hle := length_executionResult_le output
    rw [executionSize] at hle
    rw [hchain, bodyBytes_cons, bodyBytes_nil, List.append_nil, Property.length_bytes,
      Property.size, hvalue, sizeofProtoObjectProperty]
    omega

/-- A command that has printed something has a result. -/
theorem bodyBytes_result_ne_nil {output : List UInt8}
    (hprinted : (executionResult output).bytes ≠ []) :
    bodyBytes (chainProperties [declareStrProperty 0x73 (executionResult output)]) ≠ [] := by
  obtain ⟨result, -, -, hchain⟩ := (chainProperties_result output).2 hprinted
  rw [hchain]
  exact bodyBytes_cons_ne_nil _ _

/-- The object of the response. -/
def resultObject (output : List UInt8) : SendableObject .pc :=
  .allocate .pc (fun _ => 0) 0x10000 [declareStrProperty 0x73 (executionResult output)]
    ((length_chainProperties_le _).trans (show 1 ≤ 255 by decide))
    ((length_bodyBytes_result output).trans (by decide))

/-- `handle_command`.  What a command prints may depend on all commands before. -/
def handleCommand (popen : List (List UInt8 × List UInt8) → List UInt8 → List UInt8)
    (objects : List (List Property)) (shell : Shell) : HandlerResult .pc × Shell :=
  match objects with
  -- `objects[0]` is read without a test; `client_request_complete` makes it
  | [] => (⟨none, []⟩, { shell with outside := true })
  | firstObject :: _ =>
      match firstObject.find? fun p => p.key == 0x43 with
      | none => (⟨some noTextSupplied, []⟩, shell)
      | some text =>
          let cmd := commandLine (copyStrProperty text)
          let output := popen shell.executed cmd
          (⟨none, [resultObject output]⟩,
            { executed := shell.executed ++ [(cmd, output)]
              -- a zero is written behind the command, and one behind the output
              outside := shell.outside || executionSize < cmd.length + 1 ||
                executionSize < (output.take executionSize).length + 1 })

/-- `init_handlers`. -/
def terminalServices (popen : List (List UInt8 × List UInt8) → List UInt8 → List UInt8) :
    List (Service .pc Shell) :=
  [(commandName, handleCommand popen)]

variable {popen : List (List UInt8 × List UInt8) → List UInt8 → List UInt8}

theorem properties_resultObject_le (output : List UInt8) :
    (resultObject output).properties.length ≤ 1 :=
  length_chainProperties_le _

variable (popen) in
theorem servicesOk_terminalServices : ServicesOk (terminalServices popen) := by
  intro service hmem objects shell
  rw [List.mem_singleton.mp hmem]
  show (handleCommand popen objects shell).1.answer.Ok
  unfold handleCommand
  split
  · trivial
  · split
    · exact ⟨by decide, by decide⟩
    · next text _ =>
        refine ⟨List.cons_ne_nil _ _, show 1 ≤ 255 by decide, ?_, fun object hobject => ?_⟩
        · have hsize := (resultObject (popen shell.executed
            (commandLine (copyStrProperty text)))).size_le
          rw [List.map_singleton, frameSize_cons, frameSize_nil]
          omega
        · rw [List.mem_singleton.mp hobject]
          exact (properties_resultObject_le _).trans (by decide)

/-! ## What the two are for -/

/-- The reply to a line, and what has been run then. -/
def exchange (popen : List (List UInt8 × List UInt8) → List UInt8 → List UInt8)
    (executed : List (List UInt8 × List UInt8)) (line : List UInt8) :
    Printed × List (List UInt8 × List UInt8) :=
  if line = [] then
    (.error noTextSupplied.bytes, executed)
  else
    let output := popen executed (commandLine line)
    (.response (executionResult output).bytes, executed ++ [(commandLine line, output)])

/-- Line after line: the replies, and what has been run. -/
def dialogue (popen : List (List UInt8 × List UInt8) → List UInt8 → List UInt8)
    (lines : List (List UInt8)) : List Printed × List (List UInt8 × List UInt8) :=
  lines.foldl (fun done line =>
    let next := exchange popen done.2 line
    (done.1 ++ [next.1], next.2)) ([], [])

variable (popen) in
theorem dialogue_concat (lines : List (List UInt8)) (line : List UInt8) :
    dialogue popen (lines ++ [line]) =
      ((dialogue popen lines).1 ++ [(exchange popen (dialogue popen lines).2 line).1],
        (exchange popen (dialogue popen lines).2 line).2) := by
  rw [dialogue, List.foldl_append]
  rfl

end ZxProto
