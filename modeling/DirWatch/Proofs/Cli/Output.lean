import DirWatch.Cli.Run
import DirWatch.Proofs.Change.FilterTexts
import DirWatch.Proofs.Json.Values
import DirWatch.Watch.EventRecord

/-!
# Output in JSON is read back

What the program writes in JSON, a program behind it can read. An event is one line whatever stands
in its paths and messages, and the line is read as the record of the event; the changes of a file
are one array, which is read as these changes.
-/

namespace DirWatch

open Json

/-! ## Changes -/

theorem Action.reads_json (a : Action) : Action.reader.Reads a.json a := by
  apply Reader.reads_label
  cases a <;> rfl

theorem Action.exact_reader : Action.reader.Exact := Reader.exact_label _

theorem Change.shape_lawful : Change.shape.Lawful := by
  refine Shape.lawful_of_settable (by decide) (by simp [shape]) ?_
  simp only [shape, List.forall_mem_cons]
  exact ⟨⟨_, _, _, rfl, Action.exact_reader, by simp⟩,
    ⟨_, _, _, rfl, Reader.exact_string _, by simp⟩,
    List.forall_mem_nil _⟩

theorem Change.reads_json (c : Change) : Change.reader.Reads c.json c := by
  have given : Shape.Given Change.shape.members
      [("action", c.action.json), ("path", .string c.path)] _ :=
    .member List.mem_cons_self rfl (c.action.reads_json.map _)
      (.member (.tail _ List.mem_cons_self) rfl ((Reader.reads_string _ c.path).map _) .nil)
  exact given.reads shape_lawful (by simp) rfl

theorem Change.exact_reader : Change.reader.Exact := Shape.exact_reader _ shape_lawful.exact

theorem Change.reads_list (cs : List Change) :
    (Reader.list Change.reader).Reads (.array (cs.map Change.json)) cs :=
  Reader.reads_list fun c _ => c.reads_json

/-! ## Errors -/

/-- The operating system numbers its errors with 32 bits. -/
def IoError.Sized : IoError → Prop
  | system code => -2 ^ 31 ≤ code ∧ code < 2 ^ 31
  | raised _ _ => True

/-- The number of an error as it is written. -/
def IoError.codeJson (e : IoError) : Value :=
  match e.code? with
  | some n => .number n
  | none => .null

theorem IoError.reads_code {e : IoError} (sized : e.Sized) :
    Reader.optionalInt32.Reads e.codeJson e.code? := by
  cases e with
  | system code => exact Reader.reads_optionalInt32 sized.1 sized.2
  | raised kind message => exact Reader.reads_optionalInt32_null

theorem ErrorRecord.shape_lawful : ErrorRecord.shape.Lawful := by
  refine Shape.lawful_of_settable (by decide) (by simp [shape]) ?_
  simp only [shape, List.forall_mem_cons]
  exact ⟨⟨_, _, _, rfl, Reader.exact_string _, by simp⟩,
    ⟨_, _, _, rfl, Reader.exact_optionalInt32, by simp⟩,
    ⟨_, _, _, rfl, Reader.exact_string _, by simp⟩,
    List.forall_mem_nil _⟩

theorem IoError.reads_json {e : IoError} (sized : e.Sized) :
    ErrorRecord.reader.Reads e.json e.record := by
  have given : Shape.Given ErrorRecord.shape.members
      [("kind", .string e.kind.label), ("code", e.codeJson), ("message", .string e.message)] _ :=
    .member List.mem_cons_self rfl ((Reader.reads_string _ e.kind.label).map _)
      (.member (.tail _ List.mem_cons_self) rfl ((reads_code sized).map _)
        (.member (.tail _ (.tail _ List.mem_cons_self)) rfl
          ((Reader.reads_string _ e.message).map _) .nil))
  exact given.reads ErrorRecord.shape_lawful (by simp) rfl

theorem ErrorRecord.exact_reader : ErrorRecord.reader.Exact :=
  Shape.exact_reader _ shape_lawful.exact

/-! ## Events -/

/-- The numbers of an event have the sizes that they are kept in. -/
def Event.Sized (e : Event) : Prop :=
  e.handle.number < 2 ^ 64 ∧ ∀ err, e.payload = .failure err → err.Sized

theorem Handle.reads_json {h : Handle} (fits : h.number < 2 ^ 64) :
    Handle.reader.Reads h.json h := by
  have number := (Reader.reads_nat64 "u64" fits).map fun n => (⟨n.toNat⟩ : Handle)
  have same : (UInt64.ofNat h.number).toNat = h.number := UInt64.toNat_ofNat_of_lt' fits
  rwa [same] at number

theorem Handle.exact_reader : Handle.reader.Exact := (Reader.exact_nat64 _).map _

theorem EventStatus.reads_label (s : EventStatus) :
    EventStatus.reader.Reads (.string s.label) s := by
  apply Reader.reads_label
  cases s <;> rfl

theorem EventRecord.shape_lawful : EventRecord.shape.Lawful := by
  refine Shape.lawful_of_settable (by decide) (by simp [shape]) ?_
  simp only [shape, List.forall_mem_cons]
  exact ⟨⟨_, _, _, rfl, Handle.exact_reader, by simp⟩,
    ⟨_, _, _, rfl, Reader.exact_label _, by simp⟩,
    ⟨_, _, _, rfl, Reader.exact_list Change.exact_reader, by simp⟩,
    ⟨_, _, _, rfl, ErrorRecord.exact_reader, by simp⟩,
    List.forall_mem_nil _⟩

theorem Event.reads_json {e : Event} (sized : e.Sized) :
    EventRecord.reader.Reads e.json e.record := by
  obtain ⟨handle, errors⟩ := sized
  obtain ⟨h, payload⟩ := e
  have read_handle := Handle.reads_json handle
  have read_status := payload.status.reads_label
  have read_changes := Change.reads_list payload.changeList
  -- every event has the first three members, whatever comes behind them
  have common : ∀ {named puts}, Shape.Given EventRecord.shape.members named puts →
      Shape.Given EventRecord.shape.members (("handle", h.json) ::
        ("status", .string payload.status.label) ::
        ("changes", .array (payload.changeList.map Change.json)) :: named) _ :=
    fun rest => .member List.mem_cons_self rfl (read_handle.map _)
      (.member (.tail _ List.mem_cons_self) rfl (read_status.map _)
        (.member (.tail _ (.tail _ List.mem_cons_self)) rfl (read_changes.map _) rest))
  cases payload with
  | changes cs => exact (common .nil).reads EventRecord.shape_lawful (by simp) rfl
  | failure err =>
    have read_error := IoError.reads_json (errors err rfl)
    have error : Shape.Given EventRecord.shape.members [("error", err.json)] _ :=
      .member (.tail _ (.tail _ (.tail _ List.mem_cons_self))) rfl (read_error.map _) .nil
    exact (common error).reads EventRecord.shape_lawful (by simp) rfl

theorem Change.fits_json (c : Change) (depth : Nat) : c.json.Fits (depth + 1) := by
  simp [json, Action.json]

theorem IoError.fits_json {e : IoError} (sized : e.Sized) (depth : Nat) :
    e.json.Fits (depth + 1) := by
  cases e with
  | system code =>
    have bounds : -2 ^ 31 ≤ code ∧ code < 2 ^ 31 := sized
    have number : (Value.number code).Fits depth := Value.fits_number.mpr (by omega)
    simpa [json, code?] using number
  | raised kind message => simp [json, code?]

theorem Event.fits_json {e : Event} (sized : e.Sized) (depth : Nat) : e.json.Fits (depth + 3) := by
  obtain ⟨h, payload⟩ := e
  obtain ⟨handle, errors⟩ := sized
  have number : h.json.Fits (depth + 2) := by
    have bound : h.number < 2 ^ 64 := handle
    exact Value.fits_number.mpr (by omega)
  cases payload with
  | changes cs => simp [json, error?, Payload.error?, number, Change.fits_json]
  | failure err =>
    have error : ∀ depth, err.json.Fits (depth + 1) := IoError.fits_json (errors err rfl)
    simp [json, error?, Payload.error?, number, Change.fits_json, error]

/-! ## Commands -/

theorem Config.eq_of_validated {c config : Config} (valid : c.validated = .ok config) :
    c = config := by
  unfold validated at valid
  split at valid
  · contradiction
  · exact Except.ok.inj valid

namespace Cli

theorem read_line {e : Event} (sized : e.Sized) :
    EventRecord.reader.readAll (String.ofList e.json.compact) = .ok e.record := by
  have read := (e.reads_json sized).readAll (spells_compact _) blank_nil
  rwa [List.append_nil] at read

/-- Events that are written one after another are cut apart at the ends of lines, and each line is
read as the record of its event. -/
theorem lines_read_back {events : List Event} (sized : ∀ e ∈ events, e.Sized) :
    ∃ lines, Text.pieces '\n' (events.flatMap (writeEvent .json)) = lines ++ [[]] ∧
      List.Forall₂ (fun e line => EventRecord.reader.readAll (String.ofList line) = .ok e.record)
        events lines := by
  induction events with
  | nil => exact ⟨[], rfl, .nil⟩
  | cons e events ih =>
    obtain ⟨first, others⟩ := List.forall_mem_cons.mp sized
    obtain ⟨lines, cut, read⟩ := ih others
    refine ⟨e.json.compact :: lines, ?_, .cons (read_line first) read⟩
    have written : (e :: events).flatMap (writeEvent .json) =
        e.json.compact ++ '\n' :: events.flatMap (writeEvent .json) := by
      rw [List.flatMap_cons, writeEvent, List.append_assoc, List.singleton_append]
    rw [written, Text.pieces_append (newline_not_mem_compact e.json), cut, List.cons_append]

/-- The format that the command line asks for is the one that counts. -/
theorem format_of_configure {inv : Invocation} {tree : FileTree} {file : String} {config : Config}
    {format : OutputFormat} (decodes : inv.command = .decode file)
    (asked : inv.format = some format) (configured : inv.configure tree = .ok config) :
    config.cli.format = format := by
  unfold Invocation.configure at configured
  rw [decodes, asked] at configured
  simp only [bind, Except.bind] at configured
  split at configured
  · next path named =>
    split at configured
    · contradiction
    · rw [← Config.eq_of_validated configured]
      rfl
  · rw [← Config.eq_of_validated configured]
    rfl

/-- What `decode` writes about a file, if nothing stops it. -/
theorem run_decode {host : Host} {standing : Option String} {words : List String} {inv : Invocation}
    {file : String} {config : Config} {content : List UInt8}
    (line : Invocation.read standing words = .ok inv) (decodes : inv.command = .decode file)
    (configured : inv.configure host.tree = .ok config)
    (found : host.tree.read (RawPath.ofString file) = .ok content) :
    run host standing words = ⟨.success,
      writeChanges config.cli.format (Record.decode content.toArray content.length), []⟩ := by
  simp only [run, line, Invocation.run, configured, decodes, runDecode, found, List.size_toArray]

/-- What is written about an event in JSON is one line, and the line is read as the event: as an
object with just these members, of which only an event with an error has the last one, and as the
record with the changes and the error themselves, whose kind the label tells. Events that are
written one after another are read line by line. What `decode` writes about a file is read as the
changes of the whole file. -/
theorem json_output_reads_back :
    (∀ e : Event, e.Sized → ∃ line : List Char,
      writeEvent .json e = line ++ ['\n'] ∧ '\n' ∉ line ∧
      Value.reader.readAll (String.ofList line) = .ok (.object
        ([("handle", .number e.handle.number), ("status", .string e.status.label),
          ("changes", .array (e.changes.map fun c =>
            .object [("action", .string c.action.label), ("path", .string c.path)]))] ++
          match e.payload with
          | .changes _ => []
          | .failure err => [("error", .object [("kind", .string err.kind.label),
              ("code", match err.code? with
                | some n => .number n
                | none => .null),
              ("message", .string err.message)])])) ∧
      EventRecord.reader.readAll (String.ofList line) = .ok
        { handle := e.handle
          status := e.status
          changes := e.changes
          error := match e.payload with
            | .changes _ => none
            | .failure err => some ⟨err.kind.label, err.code?, err.message⟩ }) ∧
    (∀ kind : IoKind, IoKind.ofLabel? kind.label = some kind) ∧
    (∀ events : List Event, (∀ e ∈ events, e.Sized) → ∃ lines,
      Text.pieces '\n' (events.flatMap (writeEvent .json)) = lines ++ [[]] ∧
      List.Forall₂ (fun e line => EventRecord.reader.readAll (String.ofList line) = .ok e.record)
        events lines) ∧
    (∀ (host : Host) (standing : Option String) (words : List String) (inv : Invocation)
      (file : String) (config : Config) (content : List UInt8),
      Invocation.read standing words = .ok inv → inv.command = .decode file →
      inv.format = some .json → inv.configure host.tree = .ok config →
      host.tree.read (RawPath.ofString file) = .ok content →
      ∃ text : List Char, run host standing words = ⟨.success, text, []⟩ ∧
        (Reader.list Change.reader).readAll (String.ofList text) =
          .ok (Record.decode content.toArray content.length)) := by
  refine ⟨?_, IoKind.ofLabel?_label, fun events sized => lines_read_back sized, ?_⟩
  · intro e sized
    refine ⟨e.json.compact, rfl, newline_not_mem_compact _, ?_, ?_⟩
    · have fits : e.json.Fits Value.maxDepth := e.fits_json sized 124
      have read := (Value.reads_within fits).readAll (spells_compact _) blank_nil
      rw [List.append_nil] at read
      obtain ⟨h, payload⟩ := e
      cases payload <;> exact read
    · have read := read_line sized
      obtain ⟨h, payload⟩ := e
      cases payload <;> exact read
  · intro host standing words inv file config content line decodes asked configured found
    have json : config.cli.format = .json := format_of_configure decodes asked configured
    refine ⟨_, run_decode line decodes configured found, ?_⟩
    rw [json]
    exact (Change.reads_list _).readAll (spells_prettyAt 0 _) (blank_newLine 0)

/-- A record whose name is a letter between a quote and the end of a line. -/
def namedOddly : List UInt8 :=
  [0, 0, 0, 0, 5, 0, 0, 0, 6, 0, 0, 0, 0x22, 0, 0x61, 0, 0x0a, 0]

/-- A host whose root directory holds these bytes as a file. -/
def hostWith (name : String) (content : List UInt8) : Host :=
  { tree := ⟨[([RawPath.ofString name], .file content)], []⟩ }

/-- An event with two odd names, one whose message ends a line, and a file with an odd name. -/
theorem json_output_reads_back_oddNames :
    (∃ line : List Char,
      writeEvent .json ⟨⟨7⟩, .changes [⟨.added, "\"\n\x00"⟩, ⟨.renamedTo, "\\é𝄞"⟩]⟩ =
        line ++ ['\n'] ∧
      '\n' ∉ line ∧
      EventRecord.reader.readAll (String.ofList line) =
        .ok ⟨⟨7⟩, .changes, [⟨.added, "\"\n\x00"⟩, ⟨.renamedTo, "\\é𝄞"⟩], none⟩) ∧
    (∃ line : List Char,
      writeEvent .json ⟨⟨2 ^ 64 - 1⟩, .failure (.raised .unexpectedEof "lost\n")⟩ = line ++ ['\n'] ∧
      '\n' ∉ line ∧
      EventRecord.reader.readAll (String.ofList line) =
        .ok ⟨⟨2 ^ 64 - 1⟩, .error, [], some ⟨"UnexpectedEof", none, "lost\n"⟩⟩) ∧
    ∃ text : List Char,
      run (hostWith "dump" namedOddly) none ["decode", "--format", "json", "dump"] =
        ⟨.success, text, []⟩ ∧
      (Reader.list Change.reader).readAll (String.ofList text) =
        .ok [⟨.renamedTo, "\"a\n"⟩] := by
  obtain ⟨events, -, -, files⟩ := json_output_reads_back
  refine ⟨?_, ?_, ?_⟩
  · have sized : Event.Sized ⟨⟨7⟩, .changes [⟨.added, "\"\n\x00"⟩, ⟨.renamedTo, "\\é𝄞"⟩]⟩ := by
      refine ⟨by decide, ?_⟩
      intro err failed
      contradiction
    obtain ⟨line, written, one, -, read⟩ := events _ sized
    exact ⟨line, written, one, read⟩
  · have sized : Event.Sized ⟨⟨2 ^ 64 - 1⟩, .failure (.raised .unexpectedEof "lost\n")⟩ := by
      refine ⟨by decide, ?_⟩
      intro err failed
      cases failed
      trivial
    obtain ⟨line, written, one, -, read⟩ := events _ sized
    exact ⟨line, written, one, read⟩
  · have line : Invocation.read none ["decode", "--format", "json", "dump"] =
        .ok ⟨none, some .json, .decode "dump"⟩ := by decide +kernel
    have found : (hostWith "dump" namedOddly).tree.read (RawPath.ofString "dump") =
        .ok namedOddly := by decide +kernel
    have decoded : Record.decode namedOddly.toArray namedOddly.length =
        [⟨.renamedTo, "\"a\n"⟩] := by decide +kernel
    obtain ⟨text, output, read⟩ := files _ none _ _ "dump" _ namedOddly line rfl rfl rfl found
    rw [decoded] at read
    exact ⟨text, output, read⟩

end Cli

end DirWatch
