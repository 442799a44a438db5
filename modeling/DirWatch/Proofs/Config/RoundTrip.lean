import DirWatch.Proofs.Config.Settings

/-!
# Configurations are read back

What is written for a configuration is a text that names all of its settings
(`Config.describes_write`), so it is read as the configuration that it was written for, whatever
numbers, flags and bits that has.
-/

namespace DirWatch

open Json

/-! ## Filters need no escapes -/

namespace Filter

theorem plain_hexText (n : Nat) : Plain (Text.hexText n) := by
  intro c mem
  have ranges := Text.hexDigit_ranges (Text.isSome_hexDigit? (Text.hexValue?_hexText n) c mem)
  refine ⟨?_, ?_, by omega⟩
  all_goals
    rintro rfl
    revert ranges
    decide

theorem plain_toText (f : Filter) : Plain f.toText.toList := by
  have names : (classes.all fun c => c.1.toList.all fun d =>
      d ≠ '"' && d ≠ '\\' && 0x20 ≤ d.toNat) = true := by decide +kernel
  intro c mem
  rw [toText, String.toList_ofList] at mem
  rcases Text.mem_glue mem with separator | ⟨p, listed, there⟩
  · have bars : Plain " | ".toList := by simp [Plain]
    exact bars c separator
  · obtain ⟨item, of_filter, rfl⟩ := List.mem_map.mp listed
    rw [items] at of_filter
    rcases List.mem_append.mp of_filter with named | rest
    · obtain ⟨k, contained, rfl⟩ := List.mem_map.mp named
      have name := List.all_eq_true.mp names k (List.mem_of_mem_filter contained)
      simpa [and_assoc] using List.all_eq_true.mp name c there
    · split at rest
      · exact absurd rest List.not_mem_nil
      · rw [List.mem_singleton.mp rest, String.toList_append, List.mem_append] at there
        rcases there with mark | digit
        · have marks : Plain "0x".toList := by simp [Plain]
          exact marks c mark
        · rw [String.toList_ofList] at digit
          exact plain_hexText _ c digit

end Filter

/-! ## What is written -/

/-- All settings of a configuration with the values that are written for them. -/
def MonitorConfig.entries (c : MonitorConfig) : List (Setting × Value) :=
  [(.bufferSize c.bufferSize, .nat c.bufferSize.toNat),
    (.maxPendingChanges c.maxPendingChanges, .nat c.maxPendingChanges.toNat),
    (.closeWaitMs c.closeWaitMs, .nat c.closeWaitMs.toNat),
    (.includeSubtree c.includeSubtree, .bool c.includeSubtree), (.filter c.filter, c.filter.json)]

theorem MonitorConfig.describes_json (c : MonitorConfig) :
    Json.Describes Setting.name Setting.Text c.json.compact (c.entries.map Prod.fst) := by
  have written : c.json = .object (c.entries.map fun p => (p.1.name, p.2)) := rfl
  have filter : (Setting.filter c.filter).Text c.filter.json.compact :=
    ⟨_, _, rfl, stringText_write _, c.filter.filterText_toText⟩
  rw [written]
  apply describes_compact
  · simp [entries, Setting.name]
  · simp only [entries, List.forall_mem_cons]
    exact ⟨rfl, rfl, rfl, rfl, filter, List.forall_mem_nil _⟩

/-- All settings of a configuration with the values that are written for them. -/
def CliConfig.entries (c : CliConfig) : List (Setting × Value) :=
  [(.format c.format, .string c.format.label), (.maxEvents c.maxEvents, match c.maxEvents with
    | some n => .nat n.toNat
    | none => .null)]

theorem CliConfig.describes_json (c : CliConfig) :
    Json.Describes Setting.name Setting.Text c.json.compact (c.entries.map Prod.fst) := by
  have written : c.json = .object (c.entries.map fun p => (p.1.name, p.2)) := rfl
  have format : (Setting.format c.format).Text (Value.string c.format.label).compact :=
    LabelText.quoted (stringText_write _)
  rw [written]
  apply describes_compact
  · simp [entries, Setting.name]
  · simp only [entries, List.forall_mem_cons]
    refine ⟨format, ?_, List.forall_mem_nil _⟩
    cases c.maxEvents with
    | none => rfl
    | some n => rfl

/-- Both parts of a configuration with the values that are written for them. -/
def Config.entries (c : Config) : List (Part × Value) :=
  [(.monitor (c.monitor.entries.map Prod.fst), c.monitor.json),
    (.cli (c.cli.entries.map Prod.fst), c.cli.json)]

/-- Everything that a configuration says is named in its text. -/
theorem Config.describes_write (c : Config) :
    Describes c.write (c.monitor.entries.map Prod.fst) (c.cli.entries.map Prod.fst) := by
  have whole : Document c.write c.json.compact :=
    ⟨[], [], blank_nil, blank_nil, by simp [write]⟩
  have written : c.json = .object (c.entries.map fun p => (p.1.name, p.2)) := rfl
  have texts : ∀ p ∈ c.entries, p.1.Text p.2.compact :=
    List.forall_mem_cons.mpr
      ⟨c.monitor.describes_json, List.forall_mem_singleton.mpr c.cli.describes_json⟩
  rw [written] at whole
  refine ⟨_, _, whole, describes_compact c.entries ?_ texts, ?_, ?_⟩
  · simp [entries, Part.name]
  · simp [entries, Part.monitorSettings]
  · simp [entries, Part.cliSettings]

/-- All settings of a configuration, put into the standard one, give it back. -/
theorem Config.withSettings_entries (c : Config) :
    withSettings (c.monitor.entries.map Prod.fst) (c.cli.entries.map Prod.fst) = c := rfl

/-- The text of a configuration, word for word. -/
def Config.spelled (c : Config) : String :=
  "\x7b\"monitor\":\x7b\"buffer_size\":" ++ toString c.monitor.bufferSize.toNat ++
    ",\"max_pending_changes\":" ++ toString c.monitor.maxPendingChanges.toNat ++
    ",\"close_wait_ms\":" ++ toString c.monitor.closeWaitMs.toNat ++
    ",\"include_subtree\":" ++ toString c.monitor.includeSubtree ++
    ",\"filter\":\"" ++ c.monitor.filter.toText ++
    "\"\x7d,\"cli\":\x7b\"format\":\"" ++ c.cli.format.label ++
    "\",\"max_events\":" ++ (match c.cli.maxEvents with
      | some n => toString n.toNat
      | none => "null") ++ "\x7d\x7d"

theorem Config.write_eq (c : Config) : c.write = c.spelled := by
  unfold spelled
  have filter := writeString_plain c.monitor.filter.plain_toText
  have format : writeString c.cli.format.label.toList =
      '"' :: c.cli.format.label.toList ++ ['"'] := by
    cases c.cli.format <;> rfl
  have flag : wordText c.monitor.includeSubtree = (toString c.monitor.includeSubtree).toList := by
    cases c.monitor.includeSubtree <;> rfl
  have number : ∀ n : Nat, (Value.nat n).compact = (toString n).toList :=
    fun n => (String.toList_ofList).symm
  rw [← String.toList_inj, write, String.toList_ofList]
  simp only [json, MonitorConfig.json, CliConfig.json, Filter.json, Value.compact, compactMembers,
    number, filter, format, flag]
  cases c.cli.maxEvents with
  | none => simp [writeString, escapeChar, Value.compact]
  | some n => simp [writeString, escapeChar, number]

namespace Config

/-- A configuration is read back from what is written for it, whatever it says. Its text names all
of its settings in their order, the filter as the names of the set bits that have one, in the order
of the bits, and one hexadecimal item for the others. -/
theorem read_write (c : Config) :
    read c.write = .ok c ∧ c.write = c.spelled ∧
    c.monitor.filter.toText = " | ".intercalate
      ((Filter.numbered.filter fun p => c.monitor.filter.bits.toNat.testBit p.1).map Prod.snd ++
        if c.monitor.filter.bits &&& ~~~0x17f = 0 then []
        else ["0x" ++ String.ofList (Nat.toDigits 16 (c.monitor.filter.bits &&& ~~~0x17f).toNat)]) ∧
    (c.monitor.filter.bits = 0 → c.monitor.filter.toText = "") := by
  refine ⟨?_, c.write_eq, ?_, ?_⟩
  · have reads := read_eq c.describes_write
    rwa [c.withSettings_entries] at reads
  · rw [Filter.toText_eq, Filter.items_eq]
    rfl
  · intro none_set
    rw [Filter.toText_eq, Filter.items_eq, none_set]
    rfl

end Config

end DirWatch
