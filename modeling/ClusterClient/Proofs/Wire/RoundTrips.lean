import ClusterClient.Proofs.Wire.Records
/-!
What is written is read back: all that is exchanged or configured, of configuration items
those with values that are not nested beyond the limit of the reader.
-/
namespace ClusterClient.Wire

open Json (Legible spelled asRead nesting depthLimit)

theorem asRead_encode {α : Type} [Wire α] [Lossless α 0] (a : α) :
    asRead 1 (encode a) = (encode a).spelled := by
  have flat := (Lossless.within a).nesting_le
  have room : 1 + (encode a).nesting < depthLimit := by
    have : depthLimit = 128 := rfl
    omega
  exact Json.asRead_eq_spelled room

theorem legible_configItem {c : ConfigItem} (whole : c.value.Whole) : (encode c).Legible := by
  refine .object fun m here => ?_
  simp only [List.mem_cons, List.not_mem_nil, or_false] at here
  rcases here with rfl | rfl | rfl | rfl
  · exact (Lossless.within c.scope).legible
  · exact (Lossless.within c.name).legible
  · exact (Lossless.within c.mode).legible
  · exact whole.legible

/-- What is read where an item was written: its value as it is read one level down. -/
theorem asRead_configItem (c : ConfigItem) :
    asRead 0 (encode c) = .object
      [("module", (encode c.scope).spelled), ("name", (encode c.name).spelled),
        ("mode", (encode c.mode).spelled), ("value", asRead 1 c.value)] := by
  have members : asRead 0 (encode c) = Json.asObject
      [("module", asRead 1 (encode c.scope)), ("name", asRead 1 (encode c.name)),
        ("mode", asRead 1 (encode c.mode)), ("value", asRead 1 c.value)] :=
    Json.atDepth_of_lt (by decide) _
  rw [members, asRead_encode, asRead_encode, asRead_encode]
  exact asObject_own (show ∀ name ∈ ["module", "name", "mode", "value"], _ by decide)

theorem decode_configItem (c : ConfigItem) :
    decode? (asRead 0 (encode c)) =
      (asRead 1 c.value).canonical?.map fun value => { c with value } := by
  rw [asRead_configItem]
  refine (fields?_bind [("module", (encode c.scope).spelled), ("name", (encode c.name).spelled),
    ("mode", (encode c.mode).spelled), ("value", asRead 1 c.value)] (by simp) _).trans ?_
  simp only [List.map_cons, List.map_nil, ↓need_bind]
  change (asRead 1 c.value).canonical?.bind _ = _
  cases (asRead 1 c.value).canonical? <;> rfl

/-- An item is read back if and only if its value is nested less deep than the reader goes
within the item. -/
theorem roundTrips_configItem_iff {c : ConfigItem} (whole : c.value.Whole) :
    RoundTrips c ↔ c.value.nesting + 1 < depthLimit := by
  have made : (asRead 1 c.value).canonical? =
      if 1 + c.value.nesting < depthLimit then some c.value else none := whole.fits (by decide)
  rw [RoundTrips, ReadAs, Json.parse?_print (legible_configItem whole), Option.bind_some,
    decode_configItem, made, Nat.add_comm]
  by_cases room : c.value.nesting + 1 < depthLimit
  · rw [if_pos room]
    exact iff_of_true rfl room
  · rw [if_neg room]
    exact iff_of_false (Option.some_ne_none c).symm room

/-- So many lists, each of which is all that is in the next one. -/
def nested : Nat → Json
  | 0 => .null
  | n + 1 => .list [nested n]

theorem whole_nested (n : Nat) : (nested n).Whole := by
  induction n with
  | zero => exact .null
  | succ n ih => exact .list (List.forall_mem_singleton.mpr ih)

theorem nesting_nested (n : Nat) : (nested n).nesting = n := by
  induction n with
  | zero => rfl
  | succ n ih => rw [nested, nesting, Json.itemsNesting, Json.itemsNesting, ih, Nat.max_zero]

/-- All that is exchanged with the meta service or configured is read back from its text as it
was, in whatever order the entries of a table are written. A configuration item is if there are no
more lists and objects within each other in its value than the reader goes into, and otherwise it
is not. -/
theorem wire_values_are_read_back :
    (∀ c : ConfigItem, c.value.Whole → (RoundTrips c ↔ c.value.nesting + 1 < depthLimit)) ∧
    (∀ (h : HostItem) (entries : List (SpaceId × List PartId)),
      entries.Perm h.leaderParts.entries →
        ReadAs (.object [("host", encode h.host), ("status", encode h.status),
          ("leader_parts", ofEntries entries)]) h) ∧
    (∀ (r : HeartbeatRequest) (led : LeaderParts) (entries : List (SpaceId × List LeaderInfo)),
      r.leaderParts = some led → entries.Perm led.entries →
        ReadAs (.object [("host", encode r.host), ("role", encode r.role),
          ("cluster_id", encode r.clusterId), ("leader_parts", ofEntries entries),
          ("version", encode r.version)]) r) ∧
    (∀ h : Host, RoundTrips h) ∧
    (∀ p : PartHosts, RoundTrips p) ∧
    (∀ d : SpaceDesc, RoundTrips d) ∧
    (∀ v : VidType, RoundTrips v) ∧
    (∀ f : FieldDef, RoundTrips f) ∧
    (∀ s : Schema, RoundTrips s) ∧
    (∀ t : TagSchema, RoundTrips t) ∧
    (∀ e : EdgeSchema, RoundTrips e) ∧
    (∀ r : SchemaRef, RoundTrips r) ∧
    (∀ i : Index, RoundTrips i) ∧
    (∀ s : Status, RoundTrips s) ∧
    (∀ l : LeaderInfo, RoundTrips l) ∧
    (∀ r : HeartbeatRequest, RoundTrips r) ∧
    (∀ h : Heartbeat, RoundTrips h) ∧
    (∀ s : SpaceName, RoundTrips s) ∧
    (∀ r : SpaceRequest, RoundTrips r) ∧
    (∀ s : HostStatus, RoundTrips s) ∧
    (∀ h : HostItem, RoundTrips h) ∧
    (∀ u : Unit, RoundTrips u) ∧
    (∀ r : ConfigsRequest, RoundTrips r) ∧
    (∀ m : ConfigMode, RoundTrips m) ∧
    (∀ m : ConfigModule, RoundTrips m) ∧
    (∀ r : Role, RoundTrips r) ∧
    (∀ m : MetaSettings, RoundTrips m) ∧
    (∀ l : LogSettings, RoundTrips l) ∧
    (∀ s : Settings, RoundTrips s) := by
  refine ⟨fun c whole => roundTrips_configItem_iff whole, fun h entries perm => ?_,
    fun r led entries there perm => ?_, ?_⟩
  · exact (stands_hostItem (stands_ofEntries perm)).readAs (by decide)
  · have parts := (stands_ofEntries perm).some nofun
    rw [← there] at parts
    exact (stands_heartbeatRequest parts).readAs (by decide)
  · and_intros
    all_goals exact Lossless.roundTrips (by decide)

/-- A name that needs escapes, integers at both limits and control characters. -/
theorem option_values_are_read_back :
    let c : ConfigItem :=
      { scope := .storage
        name := "rocksdb\"\\options"
        mode := .mutable
        value := .object
          [("a\tb", .list [.int (-9223372036854775808), .int 18446744073709551615, .null]),
            ("max_open_files", .text "\x01\n\x7f"), ("sync", .bool false)] }
    c.value.Whole ∧ RoundTrips c := by
  intro c
  have numbers : ∀ j ∈ [Json.int (-9223372036854775808), .int 18446744073709551615, .null],
      j.Whole := by
    simpa using ⟨.int (by decide) (by decide), .int (by decide) (by decide), .null⟩
  have whole : c.value.Whole :=
    .object (by simpa using ⟨.list numbers, .text _, .bool _⟩) (by decide)
  exact ⟨whole, (wire_values_are_read_back.1 c whole).mpr (by decide)⟩

/-- Of two items that differ in one list around their values, one is read back and the other
one is not. -/
theorem values_at_the_depth_limit :
    let c : ConfigItem := { scope := .graph, name := "a", mode := .mutable, value := nested 127 }
    c.value.Whole ∧ ¬ RoundTrips c ∧ RoundTrips { c with value := nested 126 } := by
  intro c
  have deep := whole_nested 127
  refine ⟨deep, ?_, ?_⟩
  · rw [roundTrips_configItem_iff deep, nesting_nested]
    decide
  · rw [roundTrips_configItem_iff (whole_nested 126), nesting_nested]
    decide

end ClusterClient.Wire
