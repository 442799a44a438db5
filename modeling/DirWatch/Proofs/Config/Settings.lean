import DirWatch.Config.Load
import DirWatch.Proofs.Change.FilterTexts
import DirWatch.Proofs.Json.Naming
import DirWatch.Proofs.Json.Writing

/-!
# Configurations name what they change

`Config.Describes` says which texts are configuration files that name some settings: one object with
an object for each part, members in any order, blanks and unknown members wherever they may stand.
Such a text is read as the standard configuration with these settings in place of its own
(`Config.read_eq`); a text that names a part or a setting twice is refused (`Config.read_fails`).
-/

namespace DirWatch

open Json

/-! ## Settings -/

/-- A member of `MonitorConfig` and the value that a text gives it. -/
inductive MonitorConfig.Setting where
  | bufferSize (n : UInt64)
  | maxPendingChanges (n : UInt64)
  | closeWaitMs (n : UInt64)
  | includeSubtree (b : Bool)
  | filter (f : Filter)

/-- The configuration with a setting in place of its own. -/
def MonitorConfig.apply (c : MonitorConfig) : Setting → MonitorConfig
  | .bufferSize n => { c with bufferSize := n }
  | .maxPendingChanges n => { c with maxPendingChanges := n }
  | .closeWaitMs n => { c with closeWaitMs := n }
  | .includeSubtree b => { c with includeSubtree := b }
  | .filter f => { c with filter := f }

namespace MonitorConfig.Setting

def name : Setting → String
  | bufferSize _ => "buffer_size"
  | maxPendingChanges _ => "max_pending_changes"
  | closeWaitMs _ => "close_wait_ms"
  | includeSubtree _ => "include_subtree"
  | filter _ => "filter"

/-- The texts of the value: decimal digits, a word, or a string that stands for a filter. -/
def Text : Setting → List Char → Prop
  | bufferSize n, v | maxPendingChanges n, v | closeWaitMs n, v => v = Nat.toDigits 10 n.toNat
  | includeSubtree b, v => v = wordText b
  | filter f, v => ∃ s t, v = '"' :: s ∧ StringText s t ∧ Filter.FilterText t f

def put : Setting → Draft → Draft
  | bufferSize n, d => { d with bufferSize := some n }
  | maxPendingChanges n, d => { d with maxPendingChanges := some n }
  | closeWaitMs n, d => { d with closeWaitMs := some n }
  | includeSubtree b, d => { d with includeSubtree := some b }
  | filter f, d => { d with filter := some f }

end MonitorConfig.Setting

theorem MonitorConfig.fills_settings : Fills Setting.name Setting.put Draft.fill apply where
  put x d := by cases x <;> rfl
  comm x y other c := by cases x <;> cases y <;> first | rfl | exact absurd rfl other

/-- A member of `CliConfig` and the value that a text gives it. -/
inductive CliConfig.Setting where
  | format (f : OutputFormat)
  | maxEvents (n : Option UInt64)

/-- The configuration with a setting in place of its own. -/
def CliConfig.apply (c : CliConfig) : Setting → CliConfig
  | .format f => { c with format := f }
  | .maxEvents n => { c with maxEvents := n }

namespace CliConfig.Setting

def name : Setting → String
  | format _ => "format"
  | maxEvents _ => "max_events"

/-- The texts of the value: a label in either form, or decimal digits or `null`. -/
def Text : Setting → List Char → Prop
  | format f, v => LabelText f.label v
  | maxEvents (some n), v => v = Nat.toDigits 10 n.toNat
  | maxEvents none, v => v = "null".toList

def put : Setting → Draft → Draft
  | format f, d => { d with format := some f }
  | maxEvents n, d => { d with maxEvents := some n }

end CliConfig.Setting

theorem CliConfig.fills_settings : Fills Setting.name Setting.put Draft.fill apply where
  put x d := by cases x <;> rfl
  comm x y other c := by cases x <;> cases y <;> first | rfl | exact absurd rfl other

/-! ## Reading settings -/

theorem Filter.takes_reader {s t : List Char} {f : Filter} (string : StringText s t)
    (text : FilterText t f) : Filter.reader.Takes ('"' :: s) f := by
  have string' : StringText s (String.ofList t).toList := by rwa [String.toList_ofList]
  have text' : FilterText (String.ofList t).toList f := by rwa [String.toList_ofList]
  refine (Reader.takes_string _ string').check ?_
  rw [ofText_eq text']

theorem Filter.exact_reader : Filter.reader.Exact := (Reader.exact_string _).check _

theorem OutputFormat.takes_reader {f : OutputFormat} {v : List Char} (text : LabelText f.label v) :
    OutputFormat.reader.Takes v f := by
  refine Reader.takes_label ?_ text
  cases f <;> rfl

theorem MonitorConfig.shape_lawful : MonitorConfig.shape.Lawful := by
  refine Shape.lawful_of_settable (by decide) (by simp [shape]) ?_
  simp only [shape, List.forall_mem_cons]
  exact ⟨⟨_, _, _, rfl, Reader.exact_nat64 _, by simp⟩,
    ⟨_, _, _, rfl, Reader.exact_nat64 _, by simp⟩,
    ⟨_, _, _, rfl, Reader.exact_nat64 _, by simp⟩,
    ⟨_, _, _, rfl, Reader.exact_bool, by simp⟩,
    ⟨_, _, _, rfl, Filter.exact_reader, by simp⟩,
    List.forall_mem_nil _⟩

theorem MonitorConfig.reads_settings :
    MonitorConfig.shape.Reads Setting.name Setting.Text Setting.put where
  lawful := shape_lawful
  member := by
    intro x
    cases x with
    | bufferSize n =>
      refine ⟨_, List.mem_cons_self, rfl, ?_⟩
      rintro v rfl
      exact (Reader.takes_nat64 _ n).map _
    | maxPendingChanges n =>
      refine ⟨_, .tail _ List.mem_cons_self, rfl, ?_⟩
      rintro v rfl
      exact (Reader.takes_nat64 _ n).map _
    | closeWaitMs n =>
      refine ⟨_, .tail _ (.tail _ List.mem_cons_self), rfl, ?_⟩
      rintro v rfl
      exact (Reader.takes_nat64 _ n).map _
    | includeSubtree b =>
      refine ⟨_, .tail _ (.tail _ (.tail _ List.mem_cons_self)), rfl, ?_⟩
      rintro v rfl
      exact (Reader.takes_bool b).map _
    | filter f =>
      refine ⟨_, .tail _ (.tail _ (.tail _ (.tail _ List.mem_cons_self))), rfl, ?_⟩
      rintro v ⟨s, t, rfl, string, text⟩
      exact (Filter.takes_reader string text).map _
  setting := by
    simp only [shape, List.forall_mem_cons]
    exact ⟨⟨.bufferSize 0, rfl⟩, ⟨.maxPendingChanges 0, rfl⟩, ⟨.closeWaitMs 0, rfl⟩,
      ⟨.includeSubtree true, rfl⟩, ⟨.filter .empty, rfl⟩, List.forall_mem_nil _⟩

theorem CliConfig.shape_lawful : CliConfig.shape.Lawful := by
  refine Shape.lawful_of_settable (by decide) (by simp [shape]) ?_
  simp only [shape, List.forall_mem_cons]
  exact ⟨⟨_, _, _, rfl, Reader.exact_label _, by simp⟩,
    ⟨_, _, _, rfl, Reader.exact_optionalNat64 _, by simp⟩,
    List.forall_mem_nil _⟩

theorem CliConfig.reads_settings :
    CliConfig.shape.Reads Setting.name Setting.Text Setting.put where
  lawful := shape_lawful
  member := by
    intro x
    match x with
    | .format f =>
      refine ⟨_, List.mem_cons_self, rfl, ?_⟩
      intro v text
      exact (OutputFormat.takes_reader text).map _
    | .maxEvents (some n) =>
      refine ⟨_, .tail _ List.mem_cons_self, rfl, ?_⟩
      rintro v rfl
      exact (Reader.takes_optionalNat64_some _ n).map _
    | .maxEvents none =>
      refine ⟨_, .tail _ List.mem_cons_self, rfl, ?_⟩
      rintro v rfl
      exact (Reader.takes_optionalNat64_none _).map _
  setting := by
    simp only [shape, List.forall_mem_cons]
    exact ⟨⟨.format .text, rfl⟩, ⟨.maxEvents none, rfl⟩, List.forall_mem_nil _⟩

/-! ## Parts -/

/-- A part of a configuration and the settings that are named in it. -/
inductive Config.Part where
  | monitor (settings : List MonitorConfig.Setting)
  | cli (settings : List CliConfig.Setting)

namespace Config

namespace Part

def name : Part → String
  | monitor _ => "monitor"
  | cli _ => "cli"

/-- The texts of a part: objects that name its settings. -/
def Text : Part → List Char → Prop
  | monitor xs, v => Json.Describes MonitorConfig.Setting.name MonitorConfig.Setting.Text v xs
  | cli xs, v => Json.Describes CliConfig.Setting.name CliConfig.Setting.Text v xs

def put : Part → Draft → Draft
  | monitor xs, d => { d with monitor := some (xs.foldl .apply {}) }
  | cli xs, d => { d with cli := some (xs.foldl .apply {}) }

def monitorSettings : Part → List MonitorConfig.Setting
  | monitor xs => xs
  | cli _ => []

def cliSettings : Part → List CliConfig.Setting
  | monitor _ => []
  | cli xs => xs

end Part

theorem shape_lawful : shape.Lawful := by
  refine Shape.lawful_of_settable (by decide) (by simp [shape]) ?_
  simp only [shape, List.forall_mem_cons]
  exact ⟨⟨_, _, _, rfl, Shape.exact_reader _ MonitorConfig.shape_lawful.exact, by simp⟩,
    ⟨_, _, _, rfl, Shape.exact_reader _ CliConfig.shape_lawful.exact, by simp⟩,
    List.forall_mem_nil _⟩

theorem reads_parts : shape.Reads Part.name Part.Text Part.put where
  lawful := shape_lawful
  member := by
    intro p
    cases p with
    | monitor xs =>
      refine ⟨_, List.mem_cons_self, rfl, ?_⟩
      intro v describes
      -- the draft is filled up before the part is put in place
      have complete : MonitorConfig.shape.complete (xs.foldl (fun d x => x.put d) {}) =
          .ok (xs.foldl MonitorConfig.apply {}) :=
        congrArg Except.ok (MonitorConfig.fills_settings.foldl xs {})
      exact (MonitorConfig.reads_settings.takes describes complete).map
        fun c (d : Draft) => { d with monitor := some c }
    | cli xs =>
      refine ⟨_, .tail _ List.mem_cons_self, rfl, ?_⟩
      intro v describes
      have complete : CliConfig.shape.complete (xs.foldl (fun d x => x.put d) {}) =
          .ok (xs.foldl CliConfig.apply {}) :=
        congrArg Except.ok (CliConfig.fills_settings.foldl xs {})
      exact (CliConfig.reads_settings.takes describes complete).map
        fun c (d : Draft) => { d with cli := some c }
  setting := by
    simp only [shape, List.forall_mem_cons]
    exact ⟨⟨.monitor [], rfl⟩, ⟨.cli [], rfl⟩, List.forall_mem_nil _⟩

/-- Each part comes once at most. -/
theorem parts_cases {parts : List Part} (once : (parts.map Part.name).Nodup) :
    parts = [] ∨ (∃ ms, parts = [.monitor ms]) ∨ (∃ cs, parts = [.cli cs]) ∨
      ∃ ms cs, parts = [.monitor ms, .cli cs] ∨ parts = [.cli cs, .monitor ms] := by
  match parts with
  | [] => exact .inl rfl
  | [.monitor ms] => exact .inr (.inl ⟨ms, rfl⟩)
  | [.cli cs] => exact .inr (.inr (.inl ⟨cs, rfl⟩))
  | [.monitor ms, .cli cs] => exact .inr (.inr (.inr ⟨ms, cs, .inl rfl⟩))
  | [.cli cs, .monitor ms] => exact .inr (.inr (.inr ⟨ms, cs, .inr rfl⟩))
  | .monitor _ :: .monitor _ :: _ | .cli _ :: .cli _ :: _ => simp [Part.name] at once
  | .monitor _ :: .cli _ :: p :: _ | .cli _ :: .monitor _ :: p :: _ =>
    cases p <;> simp [Part.name] at once

/-- The standard configuration with some settings in place of its own. -/
def withSettings (ms : List MonitorConfig.Setting) (cs : List CliConfig.Setting) : Config :=
  { monitor := ms.foldl .apply {}, cli := cs.foldl .apply {} }

theorem complete_parts {parts : List Part} (once : (parts.map Part.name).Nodup) :
    shape.complete (parts.foldl (fun d p => p.put d) {}) =
      .ok (withSettings (parts.flatMap Part.monitorSettings)
        (parts.flatMap Part.cliSettings)) := by
  rcases parts_cases once with rfl | ⟨ms, rfl⟩ | ⟨cs, rfl⟩ | ⟨ms, cs, rfl | rfl⟩ <;>
    simp [shape, withSettings, Part.put, Part.monitorSettings, Part.cliSettings]

/-! ## Texts -/

/-- A text that names some settings for each part. Its parts, the settings of a part and members
with other names come in any order, with any blanks between them; no name of a part or of a setting
comes twice. -/
def Describes (text : String) (ms : List MonitorConfig.Setting) (cs : List CliConfig.Setting) :
    Prop :=
  ∃ v parts, Document text v ∧ Json.Describes Part.name Part.Text v parts ∧
    ms = parts.flatMap Part.monitorSettings ∧ cs = parts.flatMap Part.cliSettings

/-- A well-formed text with a part that comes twice, or with a part in which a setting does. -/
def NamesTwice (text : String) : Prop :=
  ∃ v named, Document text v ∧ ObjectText named v ∧ (∀ n ∈ named, ValueText n.2) ∧
    ((∃ part : Part, 2 ≤ (named.map Prod.fst).count part.name) ∨
      (∃ w, ("monitor", w) ∈ named ∧ Json.NamesTwice MonitorConfig.Setting.name w) ∨
      ∃ w, ("cli", w) ∈ named ∧ Json.NamesTwice CliConfig.Setting.name w)

theorem read_eq {text : String} {ms : List MonitorConfig.Setting} {cs : List CliConfig.Setting}
    (describes : Describes text ms cs) : read text = .ok (withSettings ms cs) := by
  obtain ⟨v, parts, document, describes, rfl, rfl⟩ := describes
  exact (reads_parts.takes describes (complete_parts describes.1)).readAll document

theorem read_fails {text : String} (twice : NamesTwice text) : ∃ e, read text = .error e := by
  obtain ⟨v, named, document, object, values, fault⟩ := twice
  have fails : shape.reader.Fails v := by
    rcases fault with ⟨part, count⟩ | ⟨w, there, twice⟩ | ⟨w, there, twice⟩
    · exact reads_parts.fails ⟨named, object, values, part, count⟩
    · have inside := (MonitorConfig.reads_settings.fails twice).map
        fun c (d : Draft) => { d with monitor := some c }
      exact Shape.fails_reader shape_lawful values List.mem_cons_self (.inr ⟨w, there, inside⟩)
        object
    · have inside := (CliConfig.reads_settings.fails twice).map
        fun c (d : Draft) => { d with cli := some c }
      exact Shape.fails_reader shape_lawful values (.tail _ List.mem_cons_self)
        (.inr ⟨w, there, inside⟩) object
  exact fails.readAll document

/-! ## Order -/

/-- No setting is named twice for a part. -/
theorem Describes.distinct {text : String} {ms : List MonitorConfig.Setting}
    {cs : List CliConfig.Setting} (describes : Describes text ms cs) :
    (ms.map MonitorConfig.Setting.name).Nodup ∧ (cs.map CliConfig.Setting.name).Nodup := by
  obtain ⟨v, parts, -, ⟨once, named, -, settings⟩, rfl, rfl⟩ := describes
  have monitor : ∀ ms, Part.monitor ms ∈ parts → (ms.map MonitorConfig.Setting.name).Nodup := by
    intro ms mem
    obtain ⟨w, once, -⟩ := settings.text_of_mem _ mem
    exact once
  have cli : ∀ cs, Part.cli cs ∈ parts → (cs.map CliConfig.Setting.name).Nodup := by
    intro cs mem
    obtain ⟨w, once, -⟩ := settings.text_of_mem _ mem
    exact once
  rcases parts_cases once with rfl | ⟨ms, rfl⟩ | ⟨cs, rfl⟩ | ⟨ms, cs, rfl | rfl⟩ <;>
    simp_all [Part.monitorSettings, Part.cliSettings]

theorem withSettings_perm {ms ms' : List MonitorConfig.Setting} {cs cs' : List CliConfig.Setting}
    (distinct : (ms.map MonitorConfig.Setting.name).Nodup)
    (distinct' : (cs.map CliConfig.Setting.name).Nodup) (perm : ms.Perm ms') (perm' : cs.Perm cs') :
    withSettings ms cs = withSettings ms' cs' := by
  rw [withSettings, withSettings, MonitorConfig.fills_settings.perm distinct perm,
    CliConfig.fills_settings.perm distinct' perm']

/-! ## Files -/

/-- A configuration file needs to name only what it changes. Whatever settings it names, in whatever
order and among whatever other members, it is read as the standard configuration with these
settings; so two files that name the same settings are read alike. A file that names a part or a
setting twice is refused, wherever the two stand. -/
theorem read_describes :
    (∀ text ms cs, Describes text ms cs → read text = .ok (withSettings ms cs) ∧
      ∀ content, Text.ofBytes? content = some text.toList →
        ofBytes content = (withSettings ms cs).validated) ∧
    (∀ text text' ms ms' cs cs', Describes text ms cs → Describes text' ms' cs' → ms.Perm ms' →
      cs.Perm cs' → read text = read text') ∧
    ∀ text, NamesTwice text → ∃ e, read text = .error e ∧
      ∀ content, Text.ofBytes? content = some text.toList →
        ofBytes content = .error (.parse e) := by
  refine ⟨?_, ?_, ?_⟩
  · intro text ms cs describes
    have reads := read_eq describes
    refine ⟨reads, ?_⟩
    intro content decoded
    simp only [ofBytes, decoded, String.ofList_toList, reads]
  · intro text text' ms ms' cs cs' describes describes' perm perm'
    obtain ⟨distinct, distinct'⟩ := describes.distinct
    rw [read_eq describes, read_eq describes', withSettings_perm distinct distinct' perm perm']
  · intro text twice
    obtain ⟨e, failed⟩ := read_fails twice
    refine ⟨e, failed, ?_⟩
    intro content decoded
    simp only [ofBytes, decoded, String.ofList_toList, failed]

/-- One setting beside an unknown member, and a part that can be read but comes twice. -/
theorem read_describes_format :
    (Describes "\x7b\"x\":[null],\"cli\":\x7b\"format\":\"json\"\x7d\x7d\n" [] [.format .json] ∧
      read "\x7b\"x\":[null],\"cli\":\x7b\"format\":\"json\"\x7d\x7d\n" =
        .ok { cli := { format := .json } }) ∧
    (Describes "\x7b\"cli\":\x7b\x7d\x7d" [] [] ∧ read "\x7b\"cli\":\x7b\x7d\x7d" = .ok {}) ∧
    NamesTwice "\x7b\"cli\":\x7b\x7d,\"cli\":\x7b\x7d\x7d" ∧
      ∃ e, read "\x7b\"cli\":\x7b\x7d,\"cli\":\x7b\x7d\x7d" = .error e := by
  have format : CliConfig.Setting.Text (.format .json) (Value.string "json").compact :=
    LabelText.quoted (stringText_write "json".toList)
  have cli : Part.Text (.cli [.format .json])
      (Value.object [("format", .string "json")]).compact :=
    ⟨by simp, _, objectText_compact _, .setting format .nil⟩
  have list : ValueText (Value.array [.null]).compact :=
    @Grammar.bracket .array _ (.first (.array blank_nil) .null (.last blank_nil))
  have members : Named Part.name Part.Text
      (written [("x", .array [.null]), ("cli", .object [("format", .string "json")])])
      [.cli [.format .json]] := by
    refine .other ?_ list (.setting cli .nil)
    rintro (_ | _) <;> simp [Part.name]
  have blank : Blank ['\n'] := List.forall_mem_singleton.mpr rfl
  have describes : Describes "\x7b\"x\":[null],\"cli\":\x7b\"format\":\"json\"\x7d\x7d\n" []
      [.format .json] :=
    ⟨_, _, ⟨[], ['\n'], blank_nil, blank, by decide⟩, ⟨by simp, _, objectText_compact _, members⟩,
      rfl, rfl⟩
  -- a part without settings may stand once, but not twice
  have nothing : Part.Text (.cli []) (Value.object []).compact :=
    ⟨List.nodup_nil, _, objectText_compact _, .nil⟩
  have once : Describes "\x7b\"cli\":\x7b\x7d\x7d" [] [] :=
    ⟨_, _, ⟨[], [], blank_nil, blank_nil, by decide⟩,
      ⟨by simp, _, objectText_compact [("cli", .object [])], .setting nothing .nil⟩, rfl, rfl⟩
  have object : ValueText (Value.object []).compact := @Grammar.bracket .object _ (.empty blank_nil)
  have objects : ∀ n ∈ written [("cli", .object []), ("cli", .object [])], ValueText n.2 :=
    List.forall_mem_cons.mpr ⟨object, List.forall_mem_singleton.mpr object⟩
  have twice : NamesTwice "\x7b\"cli\":\x7b\x7d,\"cli\":\x7b\x7d\x7d" :=
    ⟨_, _, ⟨[], [], blank_nil, blank_nil, by decide⟩, objectText_compact _, objects,
      .inl ⟨.cli [], by decide⟩⟩
  obtain ⟨e, failed, -⟩ := read_describes.2.2 _ twice
  exact ⟨⟨describes, (read_describes.1 _ _ _ describes).1⟩,
    ⟨once, (read_describes.1 _ _ _ once).1⟩, twice, e, failed⟩

end Config

end DirWatch
