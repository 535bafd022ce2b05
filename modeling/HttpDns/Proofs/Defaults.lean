import HttpDns.Config.Toml
import HttpDns.Proofs.Statements
import Mathlib.Data.Finset.Dedup
import Mathlib.Data.Finset.Insert

/-!
# Settings that are left out

A configuration is written as a document of tables, one for the client and one for logging, in
which any of its settings stand, in any order. Whatever the document leaves out has its default, be
it single settings or a table as a whole (`ofToml_written`): a table that is not there is read as
one in which nothing is set, and each setting has the same default within a table as in a new
configuration.
-/

namespace HttpDns

open Toml (Value Settings)

/-! ## What is written -/

inductive Part
  | client
  | logging
  deriving DecidableEq, Repr

def Part.name : Part → String
  | .client => "client"
  | .logging => "logging"

inductive Setting
  | accountId
  | secretKey
  | region
  | usingHttps
  | usingSign
  | usingCache
  | timeoutMs
  | retryTimes
  | bootServersIpv4
  | bootServersIpv6
  | signOffsetSecs
  | probeDomain
  | netStackCache
  | platform
  | sdkVersion
  | localFallbackTtl
  | level
  | json
  deriving DecidableEq, Repr

namespace Setting

def part : Setting → Part
  | level | json => .logging
  | _ => .client

def key : Setting → String
  | accountId => "account_id"
  | secretKey => "secret_key"
  | region => "region"
  | usingHttps => "using_https"
  | usingSign => "using_sign"
  | usingCache => "using_cache"
  | timeoutMs => "timeout_ms"
  | retryTimes => "retry_times"
  | bootServersIpv4 => "boot_servers_ipv4"
  | bootServersIpv6 => "boot_servers_ipv6"
  | signOffsetSecs => "sign_offset_secs"
  | probeDomain => "probe_domain"
  | netStackCache => "net_stack_cache"
  | platform => "platform"
  | sdkVersion => "sdk_version"
  | localFallbackTtl => "local_fallback_ttl"
  | level => "level"
  | json => "json"

/-- The value of the setting; a secret may have none. -/
def value? (c : Config) : Setting → Option Value
  | accountId => some (.text c.client.accountId)
  | secretKey => c.client.secretKey.map .text
  | region => some (.text c.client.region)
  | usingHttps => some (.scalar (.bool c.client.usingHttps))
  | usingSign => some (.scalar (.bool c.client.usingSign))
  | usingCache => some (.scalar (.bool c.client.usingCache))
  | timeoutMs => some (.scalar (.whole c.client.timeoutMs.toNat))
  | retryTimes => some (.scalar (.whole c.client.retryTimes.toNat))
  | bootServersIpv4 => some (.list (c.client.bootServersIpv4.map .text))
  | bootServersIpv6 => some (.list (c.client.bootServersIpv6.map .text))
  | signOffsetSecs => some (.scalar (.whole c.client.signOffsetSecs.toNat))
  | probeDomain => some (.text c.client.probeDomain)
  | netStackCache => some (.scalar (.bool c.client.netStackCache))
  | platform => some (.text c.client.platform)
  | sdkVersion => some (.text c.client.sdkVersion)
  | localFallbackTtl => some (.scalar (.whole c.client.localFallbackTtl.toNat))
  | level => some (.text c.logging.level)
  | json => some (.scalar (.bool c.logging.json))

theorem key_injective {k k' : Setting} (h : k.key = k'.key) : k = k' := by
  revert h
  cases k <;> cases k' <;> decide

end Setting

namespace Config

/-- The settings with their values, as the entries of a table. -/
def settings (c : Config) (ks : List Setting) : Toml.Entries :=
  ks.filterMap fun k => (k.value? c).map (k.key, ·)

/-- The tables with their settings. -/
def tables (c : Config) (layout : List (Part × List Setting)) : List (String × Toml.Entries) :=
  layout.map fun (p, ks) => (p.name, c.settings ks)

/-- The configuration with the settings in `S` as they are and all others at their defaults. -/
def only (c : Config) (S : Finset Setting) : Config :=
  let source (k : Setting) : Config := if k ∈ S then c else {}
  { client :=
      { accountId := (source .accountId).client.accountId
        secretKey := (source .secretKey).client.secretKey
        region := (source .region).client.region
        usingHttps := (source .usingHttps).client.usingHttps
        usingSign := (source .usingSign).client.usingSign
        usingCache := (source .usingCache).client.usingCache
        timeoutMs := (source .timeoutMs).client.timeoutMs
        retryTimes := (source .retryTimes).client.retryTimes
        bootServersIpv4 := (source .bootServersIpv4).client.bootServersIpv4
        bootServersIpv6 := (source .bootServersIpv6).client.bootServersIpv6
        signOffsetSecs := (source .signOffsetSecs).client.signOffsetSecs
        probeDomain := (source .probeDomain).client.probeDomain
        netStackCache := (source .netStackCache).client.netStackCache
        platform := (source .platform).client.platform
        sdkVersion := (source .sdkVersion).client.sdkVersion
        localFallbackTtl := (source .localFallbackTtl).client.localFallbackTtl }
    logging :=
      { level := (source .level).logging.level
        json := (source .json).logging.json } }

end Config

/-- The order in which a document has its tables, and each table those of its settings that are in
`S`. A table without settings may be left out. -/
structure Layout (S : Finset Setting) (layout : List (Part × List Setting)) : Prop where
  parts_nodup : (layout.map Prod.fst).Nodup
  settings_nodup : ∀ t ∈ layout, t.2.Nodup
  mem_iff : ∀ t ∈ layout, ∀ k, k ∈ t.2 ↔ k ∈ S ∧ k.part = t.1
  part_mem : ∀ k ∈ S, k.part ∈ layout.map Prod.fst

/-! ## The entries of a table -/

namespace Config

variable {c : Config} {ks : List Setting}

theorem lookup_settings (c : Config) (ks : List Setting) (k : Setting) :
    (c.settings ks).lookup k.key = if k ∈ ks then k.value? c else none := by
  induction ks with
  | nil => rfl
  | cons k' ks ih =>
    by_cases hk : k = k'
    · subst hk
      rw [if_pos List.mem_cons_self]
      cases hv : k.value? c with
      | none =>
        have hskip : c.settings (k :: ks) = c.settings ks := by simp [settings, hv]
        rw [hskip, ih, hv]
        split <;> rfl
      | some v =>
        have hhead : c.settings (k :: ks) = (k.key, v) :: c.settings ks := by simp [settings, hv]
        rw [hhead, List.lookup_cons_self]
    · have hother : (c.settings (k' :: ks)).lookup k.key = (c.settings ks).lookup k.key := by
        cases hv : k'.value? c with
        | none => simp [settings, hv]
        | some v =>
          have hkey : (k.key == k'.key) = false :=
            beq_eq_false_iff_ne.2 (mt Setting.key_injective hk)
          simp [settings, hv, List.lookup_cons, hkey]
      simp only [hother, ih, List.mem_cons, hk, false_or]

theorem mem_settings {p : String × Value} (h : p ∈ c.settings ks) :
    ∃ k ∈ ks, k.value? c = some p.2 ∧ k.key = p.1 := by
  obtain ⟨k, hk, hp⟩ := List.mem_filterMap.1 h
  obtain ⟨v, hv, rfl⟩ := Option.map_eq_some_iff.1 hp
  exact ⟨k, hk, hv, rfl⟩

theorem settings_keys_nodup (h : ks.Nodup) : ((c.settings ks).map Prod.fst).Nodup := by
  have hkeys : (c.settings ks).map Prod.fst
      = (ks.filter fun k => (k.value? c).isSome).map Setting.key := by
    rw [settings, List.map_filterMap, ← List.filterMap_eq_map, List.filterMap_filter]
    refine List.filterMap_congr fun k _ => ?_
    cases k.value? c <;> rfl
  rw [hkeys]
  exact (h.filter _).map fun _ _ => Setting.key_injective

/-- Every value of a setting can be written. -/
theorem exists_literal {k : Setting} {v : Value} (h : k.value? c = some v) :
    ∃ lit, Toml.Literal v lit := by
  have htext : ∀ s : String, ∃ lit, Toml.Literal (.text s) lit := fun s => ⟨_, .text s⟩
  have hbool : ∀ b : Bool, ∃ lit, Toml.Literal (.scalar (.bool b)) lit := by
    rintro (_ | _)
    · exact ⟨_, .no⟩
    · exact ⟨_, .yes⟩
  have hword64 : ∀ n : UInt64, ∃ lit, Toml.Literal (.scalar (.whole n.toNat)) lit := fun n =>
    ⟨_, .whole n.toNat_lt⟩
  have hword32 : ∀ n : UInt32, ∃ lit, Toml.Literal (.scalar (.whole n.toNat)) lit := fun n =>
    ⟨_, .whole (Nat.lt_trans n.toNat_lt (by decide))⟩
  have htexts : ∀ ss : List String, ∃ lit, Toml.Literal (.list (ss.map .text)) lit := by
    intro ss
    have hend : Toml.CanFollow [] := ⟨[], nofun, .nil .absent⟩
    obtain ⟨items, hitems, _⟩ := Toml.exists_items hend ss
    exact ⟨_, .list hitems⟩
  cases k
  case secretKey =>
    obtain ⟨s, _, rfl⟩ := Option.map_eq_some_iff.1 h
    exact htext s
  all_goals
    cases h
    first
      | exact htext _
      | exact hbool _
      | exact hword64 _
      | exact hword32 _
      | exact htexts _

end Config

/-! ## Reading a table -/

section Reading

variable {c : Config} {S : Finset Setting} {ks : List Setting}

theorem settings?_of_keys {names : List String} {es : Toml.Entries} (h : ∀ p ∈ es, p.1 ∈ names) :
    Toml.Entries.settings? names es = some es := by
  refine if_pos (List.all_eq_true.2 fun p hp => ?_)
  exact Bool.or_eq_true_iff.2 (.inl (List.contains_iff_mem.2 (h p hp)))

theorem word64?_whole (n : UInt64) : Value.word64? (.scalar (.whole n.toNat)) = some n := by
  have hn : n.toNat ≤ UInt64.size - 1 := Nat.le_sub_one_of_lt n.toNat_lt
  have hnatural : Value.natural? (UInt64.size - 1) (.scalar (.whole n.toNat)) = some n.toNat :=
    if_pos hn
  rw [Value.word64?, hnatural, Option.map_some, UInt64.ofNat_toNat]

theorem word32?_whole (n : UInt32) : Value.word32? (.scalar (.whole n.toNat)) = some n := by
  have hn : n.toNat ≤ UInt32.size - 1 := Nat.le_sub_one_of_lt n.toNat_lt
  have hnatural : Value.natural? (UInt32.size - 1) (.scalar (.whole n.toNat)) = some n.toNat :=
    if_pos hn
  rw [Value.word32?, hnatural, Option.map_some, UInt32.ofNat_toNat]

theorem texts?_list (ss : List String) : Value.texts? (.list (ss.map .text)) = some ss := by
  induction ss with
  | nil => rfl
  | cons s ss ih =>
    have hrest : (ss.map Value.text).mapM Value.text? = some ss := ih
    rw [List.map_cons, Value.texts?, List.mapM_cons, hrest]
    rfl

/-- The value of the setting is read as the field, which has its default if there is none. -/
structure Setting.Holds {α : Type} (k : Setting) (field : Config → α) (read : Value → Option α) :
    Prop where
  read_eq : ∀ c v, k.value? c = some v → read v = some (field c)
  eq_default : ∀ c, k.value? c = none → field c = field {}

namespace Setting.Holds

variable {k : Setting}

theorem of_value {α : Type} {field : Config → α} {read : Value → Option α} {write : α → Value}
    (h : ∀ c, k.value? c = some (write (field c))) (hread : ∀ a, read (write a) = some a) :
    k.Holds field read where
  read_eq c v hv := by
    rw [h c] at hv
    cases hv
    exact hread (field c)
  eq_default c hv := by
    rw [h c] at hv
    cases hv

theorem text {field : Config → String} (h : ∀ c, k.value? c = some (.text (field c))) :
    k.Holds field Value.text? :=
  of_value h fun _ => rfl

theorem bool {field : Config → Bool} (h : ∀ c, k.value? c = some (.scalar (.bool (field c)))) :
    k.Holds field Value.bool? :=
  of_value h fun b => (rfl : Value.bool? (.scalar (.bool b)) = some b)

theorem word64 {field : Config → UInt64}
    (h : ∀ c, k.value? c = some (.scalar (.whole (field c).toNat))) :
    k.Holds field Value.word64? :=
  of_value h word64?_whole

theorem word32 {field : Config → UInt32}
    (h : ∀ c, k.value? c = some (.scalar (.whole (field c).toNat))) :
    k.Holds field Value.word32? :=
  of_value h word32?_whole

theorem texts {field : Config → List String}
    (h : ∀ c, k.value? c = some (.list ((field c).map .text))) : k.Holds field Value.texts? :=
  of_value h texts?_list

theorem secretKey :
    Setting.secretKey.Holds (·.client.secretKey) fun v => v.text?.map some where
  read_eq c v hv := by
    obtain ⟨s, hs, rfl⟩ := Option.map_eq_some_iff.1 hv
    exact congrArg some hs.symm
  eq_default _ hv := Option.map_eq_none_iff.1 hv

end Setting.Holds

/-- A setting that is in `S` is read as it is, and any other as its default. -/
theorem get_settings {α : Type} {k : Setting} {field : Config → α} {read : Value → Option α}
    (h : k.Holds field read) (hk : k ∈ ks ↔ k ∈ S) :
    Settings.get (c.settings ks) k.key (field {}) read
      = some (field (if k ∈ S then c else {})) := by
  rw [Settings.get, Config.lookup_settings]
  by_cases hS : k ∈ S
  · rw [if_pos (hk.2 hS), if_pos hS]
    cases hv : k.value? c with
    | none => rw [h.eq_default c hv]
    | some v => exact h.read_eq c v hv
  · rw [if_neg (mt hk.1 hS), if_neg hS]

theorem get_settings_bind {α β : Type} (k : Setting) (field : Config → α) {read : Value → Option α}
    (h : k.Holds field read) (hk : k ∈ ks ↔ k ∈ S) {f : α → Option β} {b : β}
    (hrest : f (field (if k ∈ S then c else {})) = some b) :
    (Settings.get (c.settings ks) k.key (field {}) read).bind f = some b := by
  rw [get_settings h hk]
  exact hrest

open Setting.Holds in
theorem client_ofSettings? (hks : ∀ k : Setting, k.part = .client → (k ∈ ks ↔ k ∈ S)) :
    ClientConfig.ofSettings? (c.settings ks) = some (c.only S).client :=
  get_settings_bind .accountId (·.client.accountId) (text fun _ => rfl) (hks _ rfl) <|
  get_settings_bind .secretKey (·.client.secretKey) secretKey (hks _ rfl) <|
  get_settings_bind .region (·.client.region) (text fun _ => rfl) (hks _ rfl) <|
  get_settings_bind .usingHttps (·.client.usingHttps) (bool fun _ => rfl) (hks _ rfl) <|
  get_settings_bind .usingSign (·.client.usingSign) (bool fun _ => rfl) (hks _ rfl) <|
  get_settings_bind .usingCache (·.client.usingCache) (bool fun _ => rfl) (hks _ rfl) <|
  get_settings_bind .timeoutMs (·.client.timeoutMs) (word64 fun _ => rfl) (hks _ rfl) <|
  get_settings_bind .retryTimes (·.client.retryTimes) (word32 fun _ => rfl) (hks _ rfl) <|
  get_settings_bind .bootServersIpv4 (·.client.bootServersIpv4) (texts fun _ => rfl)
    (hks _ rfl) <|
  get_settings_bind .bootServersIpv6 (·.client.bootServersIpv6) (texts fun _ => rfl)
    (hks _ rfl) <|
  get_settings_bind .signOffsetSecs (·.client.signOffsetSecs) (word64 fun _ => rfl)
    (hks _ rfl) <|
  get_settings_bind .probeDomain (·.client.probeDomain) (text fun _ => rfl) (hks _ rfl) <|
  get_settings_bind .netStackCache (·.client.netStackCache) (bool fun _ => rfl) (hks _ rfl) <|
  get_settings_bind .platform (·.client.platform) (text fun _ => rfl) (hks _ rfl) <|
  get_settings_bind .sdkVersion (·.client.sdkVersion) (text fun _ => rfl) (hks _ rfl) <|
  get_settings_bind .localFallbackTtl (·.client.localFallbackTtl) (word32 fun _ => rfl)
    (hks _ rfl) <|
  rfl

open Setting.Holds in
theorem logging_ofSettings? (hks : ∀ k : Setting, k.part = .logging → (k ∈ ks ↔ k ∈ S)) :
    LoggingConfig.ofSettings? (c.settings ks) = some (c.only S).logging :=
  get_settings_bind .level (·.logging.level) (text fun _ => rfl) (hks _ rfl) <|
  get_settings_bind .json (·.logging.json) (bool fun _ => rfl) (hks _ rfl) <|
  rfl

end Reading

/-! ## Reading a document -/

theorem Part.name_injective {p q : Part} (h : p.name = q.name) : p = q := by
  cases p <;> cases q <;> first | rfl | exact absurd h (by decide)

theorem Setting.client_key_mem {k : Setting} (h : k.part = .client) :
    k.key ∈ ClientConfig.settingNames := by
  cases k
  case level | json => cases h
  all_goals decide

theorem Setting.logging_key_mem {k : Setting} (h : k.part = .logging) :
    k.key ∈ LoggingConfig.settingNames := by
  cases k
  case level | json => decide
  all_goals cases h

theorem Layout.exists_layout (S : Finset Setting) : ∃ layout, Layout S layout := by
  have hmem : ∀ part k, k ∈ S.toList.filter (·.part = part) ↔ k ∈ S ∧ k.part = part := by
    intro part k
    rw [List.mem_filter, Finset.mem_toList, decide_eq_true_eq]
  have hparts : ∀ part, part ∈ [Part.client, .logging] := by
    rintro (_ | _) <;> decide
  refine ⟨[Part.client, .logging].map fun part => (part, S.toList.filter (·.part = part)), ?_⟩
  constructor
  · exact (by decide : [Part.client, .logging].Nodup)
  · intro t ht
    obtain ⟨part, _, rfl⟩ := List.mem_map.1 ht
    exact S.nodup_toList.filter _
  · intro t ht
    obtain ⟨part, _, rfl⟩ := List.mem_map.1 ht
    exact hmem part
  · intro k _
    exact hparts k.part

section Document

variable {c : Config} {S : Finset Setting} {layout : List (Part × List Setting)}

theorem lookup_tables (part : Part) :
    ((c.tables layout).map Toml.tableEntry).lookup part.name
      = (layout.lookup part).map fun ks => .table .header (c.settings ks) := by
  induction layout with
  | nil => rfl
  | cons t layout ih =>
    obtain ⟨part', ks⟩ := t
    by_cases hpart : part = part'
    · subst hpart
      rw [List.lookup_cons_self]
      exact List.lookup_cons_self
    · have hname : (part.name == part'.name) = false :=
        beq_eq_false_iff_ne.2 (mt Part.name_injective hpart)
      have hpart' : (part == part') = false := beq_eq_false_iff_ne.2 hpart
      rw [List.lookup_cons, hpart', ← ih]
      simp only [Config.tables, List.map_cons, Toml.tableEntry, List.lookup_cons, hname]

/-- A part of the configuration is read off its table. If there is none, it is read as if nothing
were set in it. -/
theorem get_part {α : Type} {part : Part} {names : List String}
    {ofSettings? : Settings → Option α} {default a : α} (hlayout : Layout S layout)
    (hnames : ∀ k : Setting, k.part = part → k.key ∈ names)
    (hread : ∀ ks, (∀ k : Setting, k.part = part → (k ∈ ks ↔ k ∈ S)) →
      ofSettings? (c.settings ks) = some a)
    (hdefault : ofSettings? [] = some default) :
    Settings.get ((c.tables layout).map Toml.tableEntry) part.name default
      (fun v => (v.settings? names).bind ofSettings?) = some a := by
  rw [Settings.get, lookup_tables]
  cases hl : layout.lookup part with
  | none =>
    have hempty : ∀ k : Setting, k.part = part → (k ∈ [] ↔ k ∈ S) := by
      intro k hk
      refine iff_of_false List.not_mem_nil fun hS => ?_
      obtain ⟨t, ht, heq⟩ := List.mem_map.1 (hlayout.part_mem k hS)
      have hother := List.lookup_eq_none_iff.1 hl t ht
      rw [heq, hk] at hother
      exact bne_iff_ne.1 hother rfl
    rw [← hread [] hempty]
    exact hdefault.symm
  | some ks =>
    obtain ⟨front, back, hsplit, _⟩ := List.lookup_eq_some_iff.1 hl
    have hmem := hlayout.mem_iff (part, ks) (by rw [hsplit]; exact List.mem_append_cons_self)
    have hkeys : ∀ p ∈ c.settings ks, p.1 ∈ names := by
      intro p hp
      obtain ⟨k, hk, _, hkey⟩ := Config.mem_settings hp
      exact hkey ▸ hnames k ((hmem k).1 hk).2
    calc (Toml.Entries.settings? names (c.settings ks)).bind ofSettings?
        = ofSettings? (c.settings ks) := by rw [settings?_of_keys hkeys, Option.bind_some]
      _ = some a := hread ks fun k hk => (hmem k).trans (and_iff_left hk)

theorem ofEntries?_tables (h : Layout S layout) :
    Config.ofEntries? ((c.tables layout).map Toml.tableEntry) = some (c.only S) := by
  have hname : ∀ part : Part, part.name ∈ Config.sectionNames := by
    rintro (_ | _) <;> decide
  have hsections : ∀ p ∈ (c.tables layout).map Toml.tableEntry, p.1 ∈ Config.sectionNames := by
    intro p hp
    obtain ⟨t, ht, rfl⟩ := List.mem_map.1 hp
    obtain ⟨⟨part, ks⟩, _, rfl⟩ := List.mem_map.1 ht
    exact hname part
  have hclient : Settings.get ((c.tables layout).map Toml.tableEntry) "client" {}
      ClientConfig.ofValue? = some (c.only S).client :=
    get_part h (fun _ => Setting.client_key_mem) (fun _ => client_ofSettings?) rfl
  have hlogging : Settings.get ((c.tables layout).map Toml.tableEntry) "logging" {}
      LoggingConfig.ofValue? = some (c.only S).logging :=
    get_part h (fun _ => Setting.logging_key_mem) (fun _ => logging_ofSettings?) rfl
  rw [Config.ofEntries?, settings?_of_keys hsections, Option.bind_eq_bind, Option.bind_some,
    hclient, Option.bind_eq_bind, Option.bind_some, hlogging]
  rfl

/-- Whichever settings of a configuration are to be written, and in whatever order: there is a text
that spells them, and every such text is read as the configuration that has these settings, and for
all others the defaults of a new one. A secret is written only if there is one. -/
theorem Config.ofToml_written (c : Config) (S : Finset Setting) :
    (∃ layout, Layout S layout) ∧ ∀ layout, Layout S layout →
      (∃ text, Toml.Spelled (c.tables layout) text)
        ∧ ∀ text, Toml.Spelled (c.tables layout) text → Config.ofToml text = .ok (c.only S) := by
  refine ⟨Layout.exists_layout S, fun layout h => ⟨Toml.exists_spelled ?_, fun text htext => ?_⟩⟩
  · intro t ht p hp
    obtain ⟨⟨part, ks⟩, _, rfl⟩ := List.mem_map.1 ht
    obtain ⟨k, _, hv, _⟩ := Config.mem_settings hp
    exact Config.exists_literal hv
  · have hnames : ((c.tables layout).map Prod.fst).Nodup := by
      have hmap : (c.tables layout).map Prod.fst = (layout.map Prod.fst).map Part.name := by
        simp [Config.tables]
      rw [hmap]
      exact h.parts_nodup.map fun _ _ => Part.name_injective
    have hkeys : ∀ t ∈ c.tables layout, (t.2.map Prod.fst).Nodup := by
      intro t ht
      obtain ⟨⟨part, ks⟩, hmem, rfl⟩ := List.mem_map.1 ht
      exact Config.settings_keys_nodup (h.settings_nodup _ hmem)
    rw [Config.ofToml, Toml.parse_of_spelled htext hnames hkeys, Option.bind_some,
      ofEntries?_tables h]

/-- One setting is written, behind an empty table, and another is not. -/
theorem Config.ofToml_written_sparse :
    let c : Config := { client := { accountId := "\"", timeoutMs := 9 } }
    let text := "[logging]\n[client]\naccount_id = \"\\u0022\""
    Layout {.accountId} [(.logging, []), (.client, [.accountId])]
      ∧ Toml.Spelled (c.tables [(.logging, []), (.client, [.accountId])]) text
      ∧ Config.ofToml text = .ok { client := { accountId := "\"" } } := by
  intro c text
  have hlayout : Layout {.accountId} [(.logging, []), (.client, [.accountId])] := by
    constructor
    · decide
    · decide
    · intro t ht k
      obtain rfl | rfl : t = (.logging, []) ∨ t = (.client, [.accountId]) := by simpa using ht
      all_goals
        revert k
        rintro (_ | _) <;> decide
    · intro k hk
      obtain rfl := Finset.mem_singleton.1 hk
      decide
  have hspelled : Toml.Spelled (c.tables [(.logging, []), (.client, [.accountId])]) text := by
    have hnone : Toml.Blanks [] := nofun
    have hone : Toml.Blanks [.blank ' '] := by simp [Toml.Blanks]
    have hcode : Toml.Hex ['0', '0', '2', '2'] ('"').toNat :=
      (((Toml.Hex.nil.snoc (v := 0) (by decide) (.inl rfl)).snoc (v := 0) (by decide)
        (.inl rfl)).snoc (v := 2) (by decide) (.inl rfl)).snoc (v := 2) (by decide) (.inl rfl)
    have hquote : Toml.Basic ['\\', 'u', '0', '0', '2', '2'] ['"'] :=
      .code (e := 'u') (by decide) hcode .nil
    have htext : text.toList = '[' :: ("logging".toList ++ ']' :: ([] ++ ['\n'] ++ '[' ::
        ("client".toList ++ ']' :: ([] ++ ['\n'] ++ ("account_id".toList ++ ' ' :: '=' :: ' ' ::
          '"' :: (['\\', 'u', '0', '0', '2', '2'] ++ '"' :: [])))))) := by
      decide
    refine ⟨_, .cons (.header (.bare (by decide) (by decide)) hnone hnone hnone hnone) <|
      .cons (.header (.bare (by decide) (by decide)) hnone hnone hnone hnone) <|
      .last (.assignment (.bare (by decide) (by decide)) (.text "\"") hnone hone hone hnone), ?_⟩
    rw [htext]
    exact .mark (by decide) <| .word (by decide) (by decide) (by simp [Toml.Ended]) <|
      .mark (by decide) <| .newline .absent .feed <|
      .mark (by decide) <| .word (by decide) (by decide) (by simp [Toml.Ended]) <|
      .mark (by decide) <| .newline .absent .feed <|
      .word (by decide) (by decide) (by simp [Toml.Ended]) <|
      .mark (by decide) <| .mark (by decide) <| .mark (by decide) <|
      .text hquote nofun <| .nil .absent
  have hread := ((Config.ofToml_written c {.accountId}).2 _ hlayout).2 text hspelled
  exact ⟨hlayout, hspelled, hread.trans rfl⟩

end Document

end HttpDns
