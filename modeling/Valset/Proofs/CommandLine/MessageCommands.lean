import Valset.CommandLine.JsonArgument
import Valset.CommandLine.MessageCommand
import Valset.Proofs.CommandLine.Surroundings
import Valset.Proofs.Files.TreePrograms
import Valset.Proofs.Json.RoundTrip
import Valset.Proofs.Message.Conversion
import Valset.Proofs.Message.Json
import Valset.Proofs.Message.RoundTrip

/-!
# What the commands on messages print

An argument names a value if it is a text of the value, or the path of a file that holds one. The
text of an object is taken for what it is, with or without the end of a line behind it. Packing
undoes unpacking at the level of what is printed.
-/

namespace Valset

/-! ## Arguments that name a value in JSON -/

namespace CommandLine

/-- A text that begins like an object or an array and stands for a value. -/
structure StandsFor (text : String) (value : Json) : Prop where
  begins : startsContainer text
  parsed : Json.parse text = some value

/-- An argument that names a value: it is a text of the value itself, or the path of a file that
holds one. -/
inductive Names (tree : FileTree) (value : Json) : (argument : String) → Prop
  | inline {text : String} (stands : StandsFor text value) : Names tree value text
  | file {path text : String} (isPath : startsContainer path = false)
      (held : tree.read path = .ok (Bytes.ofText text)) (parsed : Json.parse text = some value) :
      Names tree value path

theorem startsContainer_brace (rest : List Char) :
    startsContainer (String.ofList ('\x7b' :: rest)) := by
  rw [startsContainer, String.toList_ofList, Text.dropBlanks,
    List.dropWhile_cons_of_neg (by decide)]
  rfl

/-- An indented object stands for itself, also with blanks behind it. -/
theorem standsFor_indentedChars
    {fields : List (String × Json)}
    (readable : (Json.object fields).Readable Json.maxDepth)
    (level : Nat)
    {back : List Char}
    (blank : ∀ c ∈ back, Json.isSpace c) :
    StandsFor (String.ofList (Json.indentedChars level (.object fields) ++ back))
      (.object fields) := by
  constructor
  · cases fields with
    | nil => exact startsContainer_brace _
    | cons field fields => exact startsContainer_brace _
  · rw [← Json.Layout.chars_indented]
    exact Json.Layout.parse_chars_append .indented readable level blank

/-- What is printed for an object stands for the object, with and without the end of the line. -/
theorem standsFor_indented
    {fields : List (String × Json)}
    (readable : (Json.object fields).Readable Json.maxDepth) :
    StandsFor (Json.object fields).indented (.object fields) ∧
      StandsFor ((Json.object fields).indented ++ "\n") (.object fields) := by
  have alone := standsFor_indentedChars readable 0 (List.forall_mem_nil _)
  have closed : StandsFor (String.ofList (Json.indentedChars 0 (.object fields) ++ ['\n']))
      (.object fields) :=
    standsFor_indentedChars readable 0 (List.forall_mem_singleton.mpr rfl)
  rw [List.append_nil] at alone
  rw [String.ofList_append] at closed
  exact ⟨alone, closed⟩

/-- The value that an argument names is read. -/
theorem perform_readJsonArgument
    {α : Type}
    {tree : FileTree}
    {argument : String}
    {value : Json}
    (named : Names tree value argument)
    {read : Json.Reader α}
    {result : α}
    (understood : read value = some result) :
    tree.perform (readJsonArgument read argument).run = (.ok result, tree) := by
  rw [readJsonArgument]
  cases named with
  | inline stands =>
      rw [if_pos stands.begins, stands.parsed, Option.bind_some, understood]
      rfl
  | file isPath held parsed =>
      rw [if_neg (by simp [isPath]), FileTree.perform_adapt_eq_ok_iff]
      refine FileTree.perform_readJson held ?_
      rw [parsed, Option.bind_some, understood]

end CommandLine

namespace MessageCommand

open CommandLine

/-- A command succeeds in its surroundings, prints a line and does nothing else. -/
def Prints
    (world : Command.Surroundings)
    (command : MessageCommand)
    (line : String) : Prop :=
  world.perform command.run.run = (.ok (), { world with printed := world.printed ++ line ++ "\n" })

variable
  {world : Command.Surroundings}
  {tree later : FileTree}
  {argument line : String}
  {value : Json}

/-! ## Single commands -/

theorem perform_coded_eq_ok_iff
    {α : Type}
    {outcome : Except MessageError α}
    {result : α} :
    tree.perform (coded outcome).run = (.ok result, later) ↔
      outcome = .ok result ∧ later = tree := by
  cases outcome with
  | error cause =>
      change (Except.error _, tree) = _ ↔ _
      simp
  | ok found =>
      change (Except.ok found, tree) = _ ↔ _
      simp [eq_comm]

/-- A command prints what its output comes to. -/
theorem prints_iff {command : MessageCommand} :
    Prints world command line ↔
      world.tree.perform command.output.run = (.ok line, world.tree) := by
  rw [Prints, run, Command.Surroundings.perform_bind_eq_ok_iff]
  simp only [Command.Surroundings.perform_printLine, Prod.mk.injEq, true_and]
  constructor
  · rintro ⟨text, between, step, same⟩
    obtain ⟨tree, made, rfl⟩ := Command.Surroundings.perform_withFiles_eq_ok_iff.mp step
    simp only [Command.Surroundings.mk.injEq, true_and, String.append_left_inj,
      String.append_right_inj] at same
    obtain ⟨rfl, rfl⟩ := same
    exact made
  · intro made
    exact ⟨line, world, Command.Surroundings.perform_withFiles_eq_ok_iff.mpr ⟨_, made, rfl⟩, rfl⟩

theorem prints_unpackConversionData_iff {packed : Bytes} :
    Prints world (.unpackConversionData packed) line ↔
      ∃ data, ConversionData.unpack packed = .ok data ∧ line = data.toJson.indented := by
  rw [prints_iff, output, FileTree.perform_bind_eq_ok_iff]
  simp only [perform_coded_eq_ok_iff]
  constructor
  · rintro ⟨data, _, ⟨unpacked, rfl⟩, shown⟩
    exact ⟨data, unpacked, (Except.ok.inj (Prod.mk.inj shown).1).symm⟩
  · rintro ⟨data, unpacked, rfl⟩
    exact ⟨data, world.tree, ⟨unpacked, rfl⟩, rfl⟩

theorem prints_unpack_iff {input : Bytes} :
    Prints world (.unpack input) line ↔
      ∃ message, Message.decode input = .ok message ∧ line = message.toJson.indented := by
  rw [prints_iff, output, FileTree.perform_bind_eq_ok_iff]
  simp only [perform_coded_eq_ok_iff]
  constructor
  · rintro ⟨message, _, ⟨decoded, rfl⟩, shown⟩
    exact ⟨message, decoded, (Except.ok.inj (Prod.mk.inj shown).1).symm⟩
  · rintro ⟨message, decoded, rfl⟩
    exact ⟨message, world.tree, ⟨decoded, rfl⟩, rfl⟩

/-- A value that an argument names is there for a command. -/
theorem perform_readArgument
    {α : Type}
    (named : Names tree value argument)
    {read : Json.Reader α}
    {result : α}
    (understood : read value = some result) :
    tree.perform (readArgument read argument).run = (.ok result, tree) :=
  FileTree.perform_adapt_eq_ok_iff.mpr (perform_readJsonArgument named understood)

section Packing

variable
  {data : ConversionData}
  {period : ValidationPeriod}

theorem prints_packConversionData
    (named : Names world.tree value argument)
    (understood : ConversionData.ofJson? value = some data)
    {packed : Bytes}
    (packs : data.pack = .ok packed) :
    Prints world (.packConversionData argument) (Hex.encode0x packed) := by
  rw [prints_iff, output, FileTree.perform_bind_of_ok (perform_readArgument named understood),
    FileTree.perform_bind_of_ok (perform_coded_eq_ok_iff.mpr ⟨packs, rfl⟩)]
  rfl

theorem prints_conversionId
    (named : Names world.tree value argument)
    (understood : ConversionData.ofJson? value = some data)
    {id : ConversionId}
    (hashes : data.conversionId = .ok id) :
    Prints world (.conversionId argument) id.display := by
  rw [prints_iff, output, FileTree.perform_bind_of_ok (perform_readArgument named understood),
    FileTree.perform_bind_of_ok (perform_coded_eq_ok_iff.mpr ⟨hashes, rfl⟩)]
  rfl

theorem prints_packRegister
    (named : Names world.tree value argument)
    (understood : ValidationPeriod.ofJson? value = some period)
    {validation : ValidationId}
    {packed : Bytes}
    (packs : Message.packRegister period = .ok (validation, packed)) :
    Prints world (.packRegister argument)
      s!"validation id: {validation.display}\nmessage: {Hex.encode0x packed}" := by
  rw [prints_iff, output, FileTree.perform_bind_of_ok (perform_readArgument named understood),
    FileTree.perform_bind_of_ok (perform_coded_eq_ok_iff.mpr ⟨packs, rfl⟩)]
  rfl

end Packing

/-! ## Packing what was unpacked -/

theorem standsFor_toJson_indented (data : ConversionData) :
    StandsFor data.toJson.indented data.toJson ∧
      StandsFor (data.toJson.indented ++ "\n") data.toJson :=
  standsFor_indented (data.readable_toJson _)

/-- What is printed for conversion data is packed again to the bytes that were unpacked, and hashed
to their hash. -/
theorem packs_printed_conversionData
    {input : Bytes}
    (printed : Prints world (.unpackConversionData input) line) :
    ∃ shown, StandsFor line shown ∧ StandsFor (line ++ "\n") shown ∧
      ∀ (other : Command.Surroundings) argument, Names other.tree shown argument →
        Prints other (.packConversionData argument) (Hex.encode0x input) ∧
          Prints other (.conversionId argument) (Hex.encode0x (Sha256.hash input).bytes) := by
  obtain ⟨data, unpacked, rfl⟩ := prints_unpackConversionData_iff.mp printed
  obtain ⟨rfl, keyed, -⟩ := ConversionData.unpack_eq_ok_iff.mp unpacked
  have packs : data.pack = .ok data.packedFields := ConversionData.pack_eq_ok_iff.mpr ⟨keyed, rfl⟩
  have hashes : data.conversionId = .ok ⟨Sha256.hash data.packedFields⟩ :=
    ConversionData.conversionId_eq_ok_iff.mpr ⟨_, packs, rfl⟩
  obtain ⟨stands, standsInLine⟩ := standsFor_toJson_indented data
  exact ⟨data.toJson, stands, standsInLine, fun other argument named =>
    ⟨prints_packConversionData named data.ofJson?_toJson packs,
      prints_conversionId named data.ofJson?_toJson hashes⟩⟩

/-- The period that is printed for a register message is packed again to the bytes that were
unpacked, with the validation id that was printed. -/
theorem packs_printed_period
    {input : Bytes}
    (printed : Prints world (.unpack input) line)
    {shown : Json}
    (stands : StandsFor line shown)
    (register : shown.get? "type" = some (.string "registerL1Validator")) :
    ∃ validation period,
      shown.get? "validation_id" = some (.string validation) ∧
        shown.get? "validation_period" = some period ∧
        (∃ before text after, line = before ++ "\"validation_period\": " ++ text ++ after ∧
          StandsFor text period) ∧
        ∀ (other : Command.Surroundings) argument, Names other.tree period argument →
          Prints other (.packRegister argument)
            s!"validation id: {validation}\nmessage: {Hex.encode0x input}" := by
  obtain ⟨message, decoded, rfl⟩ := prints_unpack_iff.mp printed
  have shown_eq : message.toJson = shown := by
    have parsed := stands.parsed
    rw [Json.parse_indented (message.readable_toJson _)] at parsed
    exact Option.some.inj parsed
  subst shown_eq
  rw [Message.get?_toJson_type] at register
  have written := Message.decode_eq_ok_iff_writtenAs.mp decoded
  cases message with
  | registerL1Validator validation period =>
      obtain ⟨rfl, packable, rfl⟩ := written
      have packs := Message.packRegister_eq_ite period
      rw [if_pos packable.blsPublicKey] at packs
      obtain ⟨before, after, shape⟩ := Json.exists_indented_object_eq
        [("type", .string "registerL1Validator"),
          ("validation_id", .string (Id.display ⟨Sha256.hash (Message.header Message.registerType ++
            period.pack)⟩))] "validation_period" period.toJson []
      have standsAlone : StandsFor (String.ofList (Json.indentedChars 1 period.toJson))
          period.toJson := by
        have stands := standsFor_indentedChars (period.readable_toJson _) 1 (List.forall_mem_nil _)
        rwa [List.append_nil] at stands
      exact ⟨_, period.toJson, rfl, rfl, ⟨before, _, after, shape, standsAlone⟩,
        fun other argument named => prints_packRegister named period.ofJson?_toJson packs⟩
  | subnetToL1Conversion | l1ValidatorRegistration | l1ValidatorWeight | validationUptime =>
      simp [Message.kindName] at register

/-- Conversion data are shown for the bytes that can be unpacked to some, and what is shown is
packed to the same bytes and hashed to their hash. A message is shown for the bytes that can be
decoded; the period shown for a register message is packed to the same bytes, with the validation id
shown beside it. -/
theorem packs_what_unpacking_shows
    (input : Bytes)
    (world : Command.Surroundings) :
    (((∃ line, Prints world (.unpackConversionData input) line) ↔
        ∃ data, ConversionData.unpack input = .ok data) ∧
      ∀ line, Prints world (.unpackConversionData input) line →
        ∃ shown, StandsFor line shown ∧ StandsFor (line ++ "\n") shown ∧
          ∀ (other : Command.Surroundings) argument, Names other.tree shown argument →
            Prints other (.packConversionData argument) (Hex.encode0x input) ∧
              Prints other (.conversionId argument) (Hex.encode0x (Sha256.hash input).bytes)) ∧
      ((∃ line, Prints world (.unpack input) line) ↔
        ∃ message, Message.decode input = .ok message) ∧
      ∀ line, Prints world (.unpack input) line →
        ∃ shown, StandsFor line shown ∧
          (shown.get? "type" = some (.string "registerL1Validator") →
            ∃ validation period,
              shown.get? "validation_id" = some (.string validation) ∧
                shown.get? "validation_period" = some period ∧
                (∃ before text after,
                  line = before ++ "\"validation_period\": " ++ text ++ after ∧
                    StandsFor text period) ∧
                ∀ (other : Command.Surroundings) argument, Names other.tree period argument →
                  Prints other (.packRegister argument)
                    s!"validation id: {validation}\nmessage: {Hex.encode0x input}") := by
  refine ⟨⟨?_, fun line => packs_printed_conversionData⟩, ?_, ?_⟩
  · simp only [prints_unpackConversionData_iff]
    exact ⟨fun ⟨_, data, unpacked, _⟩ => ⟨data, unpacked⟩,
      fun ⟨data, unpacked⟩ => ⟨_, data, unpacked, rfl⟩⟩
  · simp only [prints_unpack_iff]
    exact ⟨fun ⟨_, message, decoded, _⟩ => ⟨message, decoded⟩,
      fun ⟨message, decoded⟩ => ⟨_, message, decoded, rfl⟩⟩
  · intro line printed
    obtain ⟨message, _, rfl⟩ := prints_unpack_iff.mp printed
    have stands := (standsFor_indented (message.readable_toJson _)).1
    exact ⟨message.toJson, stands, packs_printed_period printed stands⟩

/-- The register message of the sample period. -/
def sampleBytes : Bytes :=
  Message.header Message.registerType ++ Message.samplePeriod.pack

/-- The texts that are shown for sample data and a sample message, handed over as they are, are
packed to the bytes that they are shown for. -/
theorem samples_packed_again :
    (∃ line, Prints .quiet (.unpackConversionData ConversionData.sample.packedFields) line ∧
      Prints .quiet (.packConversionData line)
        (Hex.encode0x ConversionData.sample.packedFields)) ∧
      ∃ line text validation : String, Prints .quiet (.unpack sampleBytes) line ∧
        Prints .quiet (.packRegister text)
          s!"validation id: {validation}\nmessage: {Hex.encode0x sampleBytes}" := by
  have unpacked : ConversionData.unpack ConversionData.sample.packedFields =
      .ok ConversionData.sample :=
    ConversionData.unpack_eq_ok_iff.mpr ⟨rfl, by decide, by decide, by decide⟩
  have decoded : Message.decode sampleBytes =
      .ok (.registerL1Validator ⟨Sha256.hash sampleBytes⟩ Message.samplePeriod) :=
    Message.decode_eq_ok_iff_writtenAs.mpr ⟨rfl, ⟨by decide, by decide, by decide, by decide⟩, rfl⟩
  constructor
  · have printed : Prints .quiet _ _ := prints_unpackConversionData_iff.mpr ⟨_, unpacked, rfl⟩
    obtain ⟨⟨_, packed⟩, _⟩ :=
      packs_what_unpacking_shows ConversionData.sample.packedFields .quiet
    obtain ⟨shown, stands, _, packs⟩ := packed _ printed
    exact ⟨_, printed, (packs .quiet _ (.inline stands)).1⟩
  · have printed : Prints .quiet _ _ := prints_unpack_iff.mpr ⟨_, decoded, rfl⟩
    obtain ⟨_, _, packed⟩ := packs_what_unpacking_shows sampleBytes .quiet
    obtain ⟨shown, stands, packed⟩ := packed _ printed
    have shown_eq := stands.parsed
    rw [Json.parse_indented (Message.readable_toJson _ _)] at shown_eq
    obtain rfl := Option.some.inj shown_eq
    obtain ⟨validation, period, _, _, ⟨_, text, _, _, stands⟩, packs⟩ := packed rfl
    exact ⟨_, text, validation, printed, packs .quiet text (.inline stands)⟩

end MessageCommand
end Valset
