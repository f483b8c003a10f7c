import RemoteFiles.Proofs.Environment
import RemoteFiles.Proofs.Run
import RemoteFiles.Sandbox

/-!
# Setting up

From the environment come the settings, and from the settings a sandbox.  Both are checked one thing
after another, and the first check that fails is the one that is reported, whatever else is wrong.

## Main definitions

* `Check`, `Checked` — checks, and computations that make them in their order.
* `Setting`, `Variable`, `readOrder` — the variables, in the order in which they are read, and what
  they set.
* `Environment.checks`, `Config.checks` — what is checked of an environment, and of settings.

## Main results

* `Checked.bind`, `Checked.guard` — one more check in front of a computation.
* `checked_ofEnvironment`, `checked_ofConfig` — the settings are made by the checks of the
  environment, and the sandbox by those of the settings.
* `environment_sets_up_sandbox` — **what an environment sets, what a sandbox is made of, and which
  fault is reported.**
-/

namespace RemoteFiles

variable {α β : Type}

/-! ### Checks in order -/

/-- A check: when it fails, and what it may report then. -/
structure Check where
  Fails : Prop
  Reports : ConfigError → Prop

/-- The first of some checks that fails. -/
inductive FirstFailing : List Check → Check → Prop where
  | here {k : Check} (ks : List Check) (h : k.Fails) : FirstFailing (k :: ks) k
  | later {k k' : Check} {ks : List Check} (h : ¬k.Fails) (more : FirstFailing ks k') :
      FirstFailing (k :: ks) k'

/-- A computation makes checks one after another: it ends well if none fails, and otherwise with
what the first that fails reports. -/
structure Checked (ks : List Check) (x : Except ConfigError α) : Prop where
  ok_iff : (∃ a, x = .ok a) ↔ ∀ k ∈ ks, ¬k.Fails
  first {e : ConfigError} (h : x = .error e) : ∃ k, FirstFailing ks k ∧ k.Reports e

namespace Checked

variable {k : Check} {ks : List Check}

theorem nil (a : α) : Checked [] (.ok a : Except ConfigError α) where
  ok_iff := ⟨fun _ _ hk => absurd hk List.not_mem_nil, fun _ => ⟨a, rfl⟩⟩
  first h := nomatch h

/-- A check that passes leaves the computation to the others, and one that fails ends it. -/
theorem cons {x : Except ConfigError α} (hpass : ¬k.Fails → Checked ks x)
    (hfail : k.Fails → ∃ e, x = .error e ∧ k.Reports e) : Checked (k :: ks) x := by
  by_cases h : k.Fails
  · obtain ⟨e, rfl, hreports⟩ := hfail h
    refine ⟨⟨fun ⟨a, ha⟩ => (nomatch ha), fun hall => ?_⟩, fun he => ?_⟩
    · exact absurd h (hall k List.mem_cons_self)
    · cases he
      exact ⟨k, .here ks h, hreports⟩
  · obtain ⟨hok, hfirst⟩ := hpass h
    refine ⟨hok.trans ?_, fun he => ?_⟩
    · rw [List.forall_mem_cons]
      exact ⟨fun hks => ⟨h, hks⟩, And.right⟩
    · obtain ⟨k', hk', hreports⟩ := hfirst he
      exact ⟨k', .later h hk', hreports⟩

/-- A part that makes one check, and then the rest of a computation. -/
theorem bind {x : Except ConfigError α} {f : α → Except ConfigError β}
    (hx : Checked [k] x) (hf : ∀ a, Checked ks (f a)) : Checked (k :: ks) (x >>= f) := by
  refine cons (fun hpass => ?_) fun hfail => ?_
  · obtain ⟨a, rfl⟩ := hx.ok_iff.mpr (List.forall_mem_singleton.mpr hpass)
    exact hf a
  · cases x with
    | ok a => exact absurd hfail (hx.ok_iff.mp ⟨a, rfl⟩ k List.mem_cons_self)
    | error e =>
      obtain ⟨k', hk', hreports⟩ := hx.first rfl
      cases hk' with
      | here => exact ⟨e, rfl, hreports⟩
      | later _ more => nomatch more

/-- A condition that is asked first, and reported if it holds. -/
theorem guard {x : Except ConfigError α} {p : Prop} [Decidable p] (e : ConfigError)
    (hx : Checked ks x) : Checked (⟨p, (· = e)⟩ :: ks) (if p then .error e else x) := by
  refine cons (fun hpass => ?_) fun hfail => ⟨e, if_pos hfail, rfl⟩
  rw [if_neg hpass]
  exact hx

theorem map {x : Except ConfigError α} (hx : Checked ks x) (f : α → β) : Checked ks (x.map f) := by
  obtain ⟨hok, hfirst⟩ := hx
  cases x with
  | error e => exact ⟨Iff.trans ⟨fun ⟨_, ha⟩ => (nomatch ha), fun ⟨_, ha⟩ => (nomatch ha)⟩ hok,
      fun he => hfirst (congrArg Except.error (Except.error.inj he))⟩
  | ok a => exact ⟨Iff.trans ⟨fun _ => ⟨a, rfl⟩, fun _ => ⟨f a, rfl⟩⟩ hok, fun he => nomatch he⟩

end Checked

/-! ### Variables -/

/-- What a variable sets: a text of the settings, or a number. -/
inductive Setting where
  | text (get : Config → String)
  | number (get : Config → Option UInt32)

/-- A variable and what it sets. -/
structure Variable where
  key : String
  setting : Setting

/-- The variables, in the order in which they are read. -/
def readOrder : List Variable :=
  [⟨"VOLC_ACCESS_KEY_ID", .text Config.accessKey⟩,
    ⟨"VOLC_SECRET_ACCESS_KEY", .text Config.secret⟩,
    ⟨"VOLC_TOOL_ID", .text Config.toolId⟩,
    ⟨"VOLC_REGION", .text Config.region⟩,
    ⟨"VOLC_SESSION_ID", .text Config.sessionId⟩,
    ⟨"VOLC_USER_SESSION_ID", .text Config.userSessionId⟩,
    ⟨"VOLC_SESSION_TTL", .number Config.sessionTtl⟩,
    ⟨"VOLC_EXECUTION_TIMEOUT", .number Config.executionTimeout⟩]

namespace Setting

/-- Bytes that a setting can be read from: those of a text, and for a number none at all or those of
a text that spells one below `2 ^ 32`. -/
def Readable : Setting → List UInt8 → Prop
  | text _, bytes => ∃ s, bytes = Utf8.encode s
  | number _, bytes => bytes = [] ∨ ∃ s, ∃ n < 2 ^ 32, bytes = Utf8.encode s ∧ Text.Spells n s

/-- What a setting is when it is read from bytes: their text, and for a number nothing, or the
number that their text spells. -/
def Reads : Setting → List UInt8 → Config → Prop
  | text get, bytes, c => bytes = Utf8.encode (get c)
  | number get, bytes, c => bytes = [] ∧ get c = none ∨
      ∃ s w, bytes = Utf8.encode s ∧ Text.Spells w.toNat s ∧ get c = some w

/-- Settings that are the same. -/
def Same : Setting → Config → Config → Prop
  | text get, c, c' => get c = get c'
  | number get, c, c' => get c = get c'

/-- What a setting is depends on the bytes that it is read from and on nothing else. -/
theorem Reads.same {x : Setting} {bytes : List UInt8} {c c' : Config} (h : x.Reads bytes c)
    (h' : x.Reads bytes c') : x.Same c c' := by
  cases x with
  | text get => exact Utf8.encode_injective (h.symm.trans h')
  | number get =>
    rcases h with ⟨hempty, hnone⟩ | ⟨s, w, hs, hspells, hsome⟩
    · rcases h' with ⟨-, hnone'⟩ | ⟨s', w', hs', hspells', -⟩
      · exact hnone.trans hnone'.symm
      · rw [Utf8.encode_injective (s := s') (t := "") (hs'.symm.trans hempty)] at hspells'
        exact absurd rfl (Environment.ne_empty_of_spells hspells')
    · rcases h' with ⟨hempty', -⟩ | ⟨s', w', hs', hspells', hsome'⟩
      · rw [Utf8.encode_injective (s := s) (t := "") (hs.symm.trans hempty')] at hspells
        exact absurd rfl (Environment.ne_empty_of_spells hspells)
      · obtain rfl := Utf8.encode_injective (hs.symm.trans hs')
        have hword := (Text.spells_iff.mp hspells).unique (Text.spells_iff.mp hspells')
        rw [UInt32.toNat_inj.mp hword] at hsome
        exact hsome.trans hsome'.symm

end Setting

/-! ### From the environment to the settings -/

/-- The check that a variable can be read; if it cannot, it is reported by its name. -/
def Variable.check (v : Variable) (env : Environment) : Check where
  Fails := ¬v.setting.Readable (env.raw v.key)
  Reports e := ∃ detail, e = .invalidValue v.key detail

/-- What is checked of an environment. -/
def Environment.checks (env : Environment) : List Check := readOrder.map (·.check env)

section Environment

variable {env : Environment} {key : String}

theorem checked_text (env : Environment) (key : String) (get : Config → String) :
    Checked [Variable.check ⟨key, .text get⟩ env] (env.text key) := by
  refine .cons (fun hpass => ?_) fun hfail => ?_
  · obtain ⟨s, hs⟩ := Classical.not_not.mp hpass
    rw [Environment.text_eq_ok_iff.mpr hs]
    exact .nil s
  · obtain ⟨detail, herror⟩ := Environment.text?_of_malformed fun s hs => hfail ⟨s, hs⟩
    rw [Environment.text, herror]
    exact ⟨_, rfl, detail, rfl⟩

theorem checked_word? (env : Environment) (key : String) (get : Config → Option UInt32) :
    Checked [Variable.check ⟨key, .number get⟩ env] (env.word? key) := by
  refine .cons (fun hpass => ?_) fun hfail => ?_
  · rcases Classical.not_not.mp hpass with hempty | ⟨s, n, hn, hs, hspells⟩
    · rw [Environment.word?_of_empty hempty]
      exact .nil none
    · have hword : Text.Spells (UInt32.ofNat n).toNat s := by
        rwa [UInt32.toNat_ofNat_of_lt' hn]
      rw [Environment.word?_eq_ok_iff.mpr (Or.inr ⟨s, _, hs, hword, rfl⟩)]
      exact .nil _
  · obtain ⟨hempty, hnot⟩ := not_or.mp hfail
    by_cases htext : ∃ s, env.raw key = Utf8.encode s
    · obtain ⟨s, hs⟩ := htext
      have hne : s ≠ "" := by
        rintro rfl
        exact hempty hs
      obtain ⟨f, herror⟩ := Environment.word?_of_not_spells hs hne
        fun n hn hspells => hnot ⟨s, n, hn, hs, hspells⟩
      exact ⟨_, herror, _, rfl⟩
    · obtain ⟨detail, herror⟩ := Environment.text?_of_malformed fun s hs => htext ⟨s, hs⟩
      rw [Environment.word?, herror]
      exact ⟨_, rfl, detail, rfl⟩

/-- **The settings are made by the checks of the environment.** -/
theorem checked_ofEnvironment (env : Environment) :
    Checked env.checks (Config.ofEnvironment env) := by
  refine .bind (checked_text env _ _) fun _ => ?_
  refine .bind (checked_text env _ _) fun _ => ?_
  refine .bind (checked_text env _ _) fun _ => ?_
  refine .bind (checked_text env _ _) fun _ => ?_
  refine .bind (checked_text env _ _) fun _ => ?_
  refine .bind (checked_text env _ _) fun _ => ?_
  refine .bind (checked_word? env _ _) fun _ => ?_
  exact .bind (checked_word? env _ _) fun _ => .nil _

theorem Setting.reads_text_iff {get : Config → String} {c : Config} :
    (Setting.text get).Reads (env.raw key) c ↔ env.text key = .ok (get c) :=
  Environment.text_eq_ok_iff.symm

theorem Setting.reads_number_iff {get : Config → Option UInt32} {c : Config} :
    (Setting.number get).Reads (env.raw key) c ↔ env.word? key = .ok (get c) :=
  Environment.word?_eq_ok_iff.symm

/-- **Each setting is read from its own variable.** -/
theorem ofEnvironment_eq_ok_iff {c : Config} : Config.ofEnvironment env = .ok c ↔
    (∀ v ∈ readOrder, v.setting.Reads (env.raw v.key) c) ∧ c.client = .standard ∧
      c.requestTimeout = none := by
  simp only [readOrder, List.forall_mem_cons, Setting.reads_text_iff, Setting.reads_number_iff]
  constructor
  · intro h
    obtain ⟨_, haccess, h⟩ := except_bind_eq_ok.mp h
    obtain ⟨_, hsecret, h⟩ := except_bind_eq_ok.mp h
    obtain ⟨_, htool, h⟩ := except_bind_eq_ok.mp h
    obtain ⟨_, hregion, h⟩ := except_bind_eq_ok.mp h
    obtain ⟨_, hsession, h⟩ := except_bind_eq_ok.mp h
    obtain ⟨_, huser, h⟩ := except_bind_eq_ok.mp h
    obtain ⟨_, httl, h⟩ := except_bind_eq_ok.mp h
    obtain ⟨_, htimeout, h⟩ := except_bind_eq_ok.mp h
    cases h
    exact ⟨⟨haccess, hsecret, htool, hregion, hsession, huser, httl, htimeout,
      fun v hv => absurd hv List.not_mem_nil⟩, rfl, rfl⟩
  · rintro ⟨⟨haccess, hsecret, htool, hregion, hsession, huser, httl, htimeout, -⟩, hclient,
      hrequest⟩
    rw [Config.ofEnvironment, haccess, hsecret, htool, hregion, hsession, huser, httl, htimeout]
    change Except.ok ({ c with client := .standard, requestTimeout := none } : Config) = .ok c
    rw [← hclient, ← hrequest]

end Environment

/-! ### From the settings to the sandbox -/

/-- What is checked of settings, in the order of the checks. -/
def Config.checks (c : Config) : List Check :=
  [⟨c.accessKey = "", (· = .missingField "AccessKeyID")⟩,
    ⟨c.secret = "", (· = .missingField "SecretAccessKey")⟩,
    ⟨c.toolId = "", (· = .missingField "ToolID")⟩,
    ⟨c.sessionId = "" ∧ c.userSessionId = "", (· = .missingSession)⟩,
    ⟨c.region ∉ ["", "cn-beijing", "cn-shanghai"], (· = .invalidRegion c.region)⟩]

/-- A region that settings mean: the one that they name, or Beijing if they name none. -/
def Config.Means (c : Config) (region : Region) : Prop :=
  c.region = region.code ∨ c.region = "" ∧ region = .beijing

section Config

variable {c : Config}

theorem resolveRegion_of_means {region : Region} (h : c.Means region) :
    c.resolveRegion = .ok region := by
  unfold Config.resolveRegion Region.ofSetting
  rcases h with h | ⟨h, rfl⟩
  · rw [h]
    cases region <;> rfl
  · rw [h]
    rfl

theorem exists_means (h : c.region ∈ ["", "cn-beijing", "cn-shanghai"]) :
    ∃ region, c.Means region := by
  simp only [List.mem_cons, List.not_mem_nil, or_false] at h
  rcases h with h | h | h
  · exact ⟨.beijing, Or.inr ⟨h, rfl⟩⟩
  · exact ⟨.beijing, Or.inl h⟩
  · exact ⟨.shanghai, Or.inl h⟩

theorem checked_resolveRegion (c : Config) :
    Checked [⟨c.region ∉ ["", "cn-beijing", "cn-shanghai"], (· = .invalidRegion c.region)⟩]
      c.resolveRegion := by
  refine .cons (fun hpass => ?_) fun hfail => ?_
  · obtain ⟨region, hregion⟩ := exists_means (Classical.not_not.mp hpass)
    rw [resolveRegion_of_means hregion]
    exact .nil region
  · simp only [List.mem_cons, List.not_mem_nil, or_false, not_or] at hfail
    obtain ⟨hempty, hbeijing, hshanghai⟩ := hfail
    change c.region ≠ Region.beijing.code at hbeijing
    change c.region ≠ Region.shanghai.code at hshanghai
    refine ⟨_, ?_, rfl⟩
    rw [Config.resolveRegion, Region.ofSetting, if_neg hempty, Region.parse, if_neg hbeijing,
      if_neg hshanghai]

/-- A sandbox has the identity of the settings and is called at the address of their region. -/
theorem result_ofConfig_eq (c : Config) : (Sandbox.ofConfig c).result =
    (Identity.ofConfig c).map fun p => ⟨.ofAddress p.2.baseUrl p.1⟩ := by
  unfold Sandbox.ofConfig
  rw [Run.result_bind, Run.result_ofExcept]
  cases Identity.ofConfig c <;> rfl

/-- **The sandbox is made by the checks of the settings.** -/
theorem checked_ofConfig (c : Config) : Checked c.checks (Sandbox.ofConfig c).result := by
  rw [result_ofConfig_eq]
  refine .map ?_ _
  exact .guard _ (.guard _ (.guard _ (.guard _ (.map (checked_resolveRegion c) _))))

theorem trimSlashes_baseUrl (region : Region) :
    Transport.trimSlashes region.baseUrl = region.baseUrl := by
  cases region <;> decide

/-- The sandbox that settings come to. -/
theorem of_result_ofConfig {s : Sandbox} (h : (Sandbox.ofConfig c).result = .ok s) :
    ∃ region, c.Means region ∧ s.identity = .ofParts c region ∧ s.baseUrl = region.baseUrl := by
  have hpass := (checked_ofConfig c).ok_iff.mp ⟨s, h⟩
  simp only [Config.checks, List.forall_mem_cons] at hpass
  obtain ⟨haccess, hsecret, htool, hsession, hregion, -⟩ := hpass
  obtain ⟨region, hmeans⟩ := exists_means (Classical.not_not.mp hregion)
  rw [result_ofConfig_eq, Identity.ofConfig, if_neg haccess, if_neg hsecret, if_neg htool,
    if_neg hsession, resolveRegion_of_means hmeans] at h
  cases h
  exact ⟨region, hmeans, rfl, trimSlashes_baseUrl region⟩

end Config

/-! ### Both -/

/-- **What an environment sets, what a sandbox is made of, and which fault is reported.**  The
settings are read from the environment if each variable can be read, and then each depends on its own
variable alone; otherwise the first variable that cannot be read is reported.  A sandbox is made from
settings that have an access key, a secret, a tool, a session of either kind and a region, named or
not; otherwise the first of these that is missing is reported.  It has the settings as they are, with
the name of the region in full, and is called at the address of that region. -/
theorem environment_sets_up_sandbox (env : Environment) :
    Checked env.checks (Config.ofEnvironment env) ∧
    (∀ c, Config.ofEnvironment env = .ok c ↔
      (∀ v ∈ readOrder, v.setting.Reads (env.raw v.key) c) ∧ c.client = .standard ∧
        c.requestTimeout = none) ∧
    (∀ env' c c', Config.ofEnvironment env = .ok c → Config.ofEnvironment env' = .ok c' →
      ∀ v ∈ readOrder, env.raw v.key = env'.raw v.key → v.setting.Same c c') ∧
    ∀ c : Config,
      Checked c.checks (Sandbox.ofConfig c).result ∧
      ((∃ s, (Sandbox.ofConfig c).result = .ok s) ↔
        c.accessKey ≠ "" ∧ c.secret ≠ "" ∧ c.toolId ≠ "" ∧
          (c.sessionId ≠ "" ∨ c.userSessionId ≠ "") ∧
          c.region ∈ ["", "cn-beijing", "cn-shanghai"]) ∧
      ∀ s, (Sandbox.ofConfig c).result = .ok s → ∃ region, c.Means region ∧
        s.identity = {
          accessKey := c.accessKey
          secret := c.secret
          region := region.code
          toolId := c.toolId
          sessionId := c.sessionId
          userSessionId := c.userSessionId
          sessionTtl := c.sessionTtl
          executionTimeout := c.executionTimeout } ∧
        s.baseUrl = region.baseUrl := by
  refine ⟨checked_ofEnvironment env, fun _ => ofEnvironment_eq_ok_iff, ?_, fun c => ⟨?_, ?_, ?_⟩⟩
  · intro env' c c' h h' v hv hraw
    have hreads := (ofEnvironment_eq_ok_iff.mp h).1 v hv
    have hreads' := (ofEnvironment_eq_ok_iff.mp h').1 v hv
    rw [← hraw] at hreads'
    exact hreads.same hreads'
  · exact checked_ofConfig c
  · rw [(checked_ofConfig c).ok_iff]
    simp only [Config.checks, List.forall_mem_cons, Classical.not_and_iff_not_or_not,
      Classical.not_not]
    exact ⟨fun ⟨h1, h2, h3, h4, h5, _⟩ => ⟨h1, h2, h3, h4, h5⟩, fun ⟨h1, h2, h3, h4, h5⟩ =>
      ⟨h1, h2, h3, h4, h5, fun k hk => absurd hk List.not_mem_nil⟩⟩
  · exact fun s h => of_result_ofConfig h

/-- An environment without a region, and the sandbox in Beijing that it sets up. -/
theorem sandbox_without_region :
    let env : Environment := [("VOLC_SESSION_TTL", Utf8.encode " 60"),
      ("VOLC_ACCESS_KEY_ID", Utf8.encode "key"), ("VOLC_SECRET_ACCESS_KEY", Utf8.encode "secret"),
      ("VOLC_TOOL_ID", Utf8.encode "tool"), ("VOLC_USER_SESSION_ID", Utf8.encode "user")]
    let c : Config := {
      accessKey := "key"
      secret := "secret"
      toolId := "tool"
      userSessionId := "user"
      sessionTtl := some 60 }
    Config.ofEnvironment env = .ok c ∧ ∃ s, (Sandbox.ofConfig c).result = .ok s ∧
      s.identity.region = "cn-beijing" ∧ s.baseUrl = "https://agentkit.cn-beijing.volces.com" := by
  intro env c
  obtain ⟨-, hok, -, hconfig⟩ := environment_sets_up_sandbox env
  obtain ⟨-, hexists, hmade⟩ := hconfig c
  have hsixty : Text.Spells 60 " 60" :=
    ⟨[' '], ['6', '0'], [], rfl, List.all_eq_true.mp (by decide), List.forall_mem_nil _,
      .bare (by decide) (List.all_eq_true.mp (by decide)) rfl⟩
  have hreads : ∀ v ∈ readOrder, v.setting.Reads (env.raw v.key) c := by
    simp only [readOrder, List.forall_mem_cons]
    exact ⟨rfl, rfl, rfl, rfl, rfl, rfl, Or.inr ⟨" 60", 60, rfl, hsixty, rfl⟩, Or.inl ⟨rfl, rfl⟩,
      fun v hv => absurd hv List.not_mem_nil⟩
  obtain ⟨s, hs⟩ := hexists.mpr ⟨by decide, by decide, by decide, Or.inr (by decide), by decide⟩
  obtain ⟨region, hmeans, hidentity, hbase⟩ := hmade s hs
  have hbeijing : region = .beijing := by
    rcases hmeans with hcode | ⟨-, rfl⟩
    · cases region <;> exact absurd hcode (by decide)
    · rfl
  subst hbeijing
  exact ⟨(hok c).mpr ⟨hreads, rfl, rfl⟩, s, hs, congrArg Identity.region hidentity, hbase⟩

/-- Of two variables that cannot be read, the one that is read first is reported. -/
example : (match Config.ofEnvironment
      [("VOLC_SESSION_TTL", Utf8.encode "soon"), ("VOLC_TOOL_ID", [0xff])] with
    | .ok _ => ""
    | .error e => e.message) =
      "invalid value for VOLC_TOOL_ID: environment variable was not valid unicode: \"\\xFF\"" := by
  decide +kernel

end RemoteFiles
