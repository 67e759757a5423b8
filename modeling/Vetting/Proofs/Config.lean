import Mathlib
import Vetting.Config
import Vetting.Proofs.Decimal

/-!
Which settings are taken, and what they come to. Only the values that are given for each setting count, not
the order of the pairs nor the pairs with other names: a configuration is read if no setting is given twice,
each number is one, and nothing required is missing, and then it is the one that has the given values and
else the defaults. Otherwise the error is that of the first pair that cannot be taken, or else of the first
setting that is missing. `Correct` says this of an outcome, and reading has no other (`read_eq_iff`).
-/
namespace Vetting

namespace Setting

/-- A name as it counts. -/
def lowered (name : String) : String := String.ofList (name.toList.map lower)

/-- Whether a name means a setting. -/
def Known (name : String) : Prop := ∃ setting : Setting, setting.name = lowered name

private theorem mem_all (setting : Setting) : setting ∈ all := by
  cases setting <;> decide

private theorem name_injective : Function.Injective name := by
  have distinct : ∀ a ∈ all, ∀ b ∈ all, a.name = b.name → a = b := by decide
  exact fun a b => distinct a (mem_all a) b (mem_all b)

variable {name : String} {setting : Setting}

private theorem ofName?_eq_some_iff : ofName? name = some setting ↔ setting.name = lowered name := by
  constructor
  · intro found
    simpa [lowered] using List.find?_some found
  · intro means
    cases found : ofName? name with
    | none =>
      have other := List.find?_eq_none.1 found setting (mem_all setting)
      exact absurd means (by simpa [lowered] using other)
    | some other =>
      have same : other.name = lowered name := by simpa [lowered] using List.find?_some found
      rw [name_injective (same.trans means.symm)]

private theorem ofName?_eq_none_iff : ofName? name = none ↔ ¬ Known name := by
  rw [Option.eq_none_iff_forall_ne_some, Known, not_exists]
  exact forall_congr' fun setting => not_congr ofName?_eq_some_iff

end Setting

namespace Config

open Setting (lowered Known)

/-- The values that are given for a setting, in the order of the pairs. -/
def given (pairs : List (String × String)) (setting : Setting) : List String :=
  (pairs.filter fun pair => setting.name = lowered pair.1).map Prod.snd

variable {pairs before others : List (String × String)} {pair : String × String} {name value text : String}
  {setting other : Setting} {found : List (Setting × SettingValue)} {e : ConfigError} {config : Config}

@[simp] theorem given_append (pairs others : List (String × String)) (setting : Setting) :
    given (pairs ++ others) setting = given pairs setting ++ given others setting := by
  simp [given]

private theorem given_self (means : setting.name = lowered name) :
    given [(name, value)] setting = [value] := by
  simp [given, means]

private theorem given_other (means : setting.name = lowered name) (different : other ≠ setting) :
    given [(name, value)] other = [] := by
  have unlike : other.name ≠ lowered name := fun same =>
    different (Setting.name_injective (same.trans means.symm))
  simp [given, unlike]

private theorem given_unknown (strange : ∀ pair ∈ pairs, ¬ Known pair.1) : given pairs setting = [] := by
  rw [given, List.map_eq_nil_iff, List.filter_eq_nil_iff]
  intro pair mem
  simpa using fun means => strange pair mem ⟨setting, means⟩

private theorem given_perm (same : pairs.Perm others) : (given pairs setting).Perm (given others setting) :=
  (same.filter _).map _

/-- A value as what a setting keeps. -/
inductive Stands : Setting → String → SettingValue → Prop
  | text {setting : Setting} {text : String} (plain : setting.isNumeric = false) :
    Stands setting text (.text text)
  | number {setting : Setting} {text : String} {n : UInt64} (numeric : setting.isNumeric = true)
    (numeral : Decimal.Numeral text.toList n.toNat) : Stands setting text (.number n)

private theorem readValue_total (setting : Setting) (text : String) :
    (∃ kept, readValue setting text = .ok kept ∧ Stands setting text kept) ∨
    ∃ refusal, readValue setting text = .error (.notANumber setting text refusal) ∧ setting.isNumeric = true ∧
      Decimal.Refuses Decimal.maxNat64 text.toList refusal := by
  cases kind : setting.isNumeric with
  | false =>
    rw [readValue, kind]
    exact .inl ⟨_, rfl, .text kind⟩
  | true =>
    rw [readValue, kind, if_pos rfl]
    cases read : Decimal.natural? Decimal.maxNat64 text.toList with
    | ok n =>
      obtain ⟨numeral, least⟩ := Decimal.natural?_eq_ok_iff.1 read
      have word : (UInt64.ofNat n).toNat = n := UInt64.toNat_ofNat_of_lt' (Nat.lt_succ_of_le least)
      exact .inl ⟨_, rfl, .number kind (word.symm ▸ numeral)⟩
    | error refusal => exact .inr ⟨refusal, rfl, rfl, Decimal.natural?_eq_error_iff.1 read⟩

private theorem readValue_refused {refusal : Decimal.Refusal} (numeric : setting.isNumeric = true)
    (refused : Decimal.Refuses Decimal.maxNat64 text.toList refusal) :
    readValue setting text = .error (.notANumber setting text refusal) := by
  rw [readValue, if_pos numeric, Decimal.natural?_eq_error_iff.2 refused]

/-! ## The first pair that cannot be taken -/

/-- Why a pair cannot be taken after others: its setting was given before, or it should be a number and is
none. Of a setting that was given before, the value is not looked at. -/
inductive Offends (before : List (String × String)) : String × String → ConfigError → Prop
  | repeated {name value : String} {setting : Setting} (means : setting.name = lowered name)
    (again : given before setting ≠ []) : Offends before (name, value) (.repeated setting)
  | notANumber {name value : String} {setting : Setting} {refusal : Decimal.Refusal}
    (means : setting.name = lowered name) (first : given before setting = []) (numeric : setting.isNumeric = true)
    (refused : Decimal.Refuses Decimal.maxNat64 value.toList refusal) :
    Offends before (name, value) (.notANumber setting value refusal)

/-- Whether each pair can be taken after those before it. -/
def Clean (pairs : List (String × String)) : Prop :=
  ∀ before pair after, pairs = before ++ pair :: after → ∀ e, ¬ Offends before pair e

private theorem Offends.unique {e' : ConfigError} (offends : Offends before pair e)
    (other : Offends before pair e') : e = e' := by
  cases offends with
  | repeated means again =>
    cases other with
    | repeated means' _ =>
      obtain rfl := Setting.name_injective (means.trans means'.symm)
      rfl
    | notANumber means' first _ _ =>
      obtain rfl := Setting.name_injective (means.trans means'.symm)
      exact absurd first again
  | notANumber means first _ refused =>
    cases other with
    | repeated means' again =>
      obtain rfl := Setting.name_injective (means.trans means'.symm)
      exact absurd first again
    | notANumber means' _ _ refused' =>
      obtain rfl := Setting.name_injective (means.trans means'.symm)
      have read := Decimal.natural?_eq_error_iff.2 refused
      rw [Decimal.natural?_eq_error_iff.2 refused'] at read
      cases read
      rfl

private theorem clean_nil : Clean [] := by
  intro before pair after split
  simp at split

private theorem Clean.snoc (clean : Clean before) (taken : ∀ e, ¬ Offends before pair e) :
    Clean (before ++ [pair]) := by
  intro front last back split
  rcases List.eq_nil_or_concat back with rfl | ⟨back, final, rfl⟩
  · obtain ⟨rfl, same⟩ := List.append_inj' split rfl
    cases same
    exact taken
  · rw [List.concat_eq_append, ← List.cons_append, ← List.append_assoc] at split
    obtain ⟨rfl, _⟩ := List.append_inj' split rfl
    exact clean front last back rfl

/-- What was found for a setting in pairs that were all taken. -/
inductive Noted (pairs : List (String × String)) (found : List (Setting × SettingValue))
    (setting : Setting) : Prop
  | absent (nothing : given pairs setting = []) (unset : found.lookup setting = none)
  | present {text : String} {kept : SettingValue} (once : given pairs setting = [text])
    (set : found.lookup setting = some kept) (stands : Stands setting text kept)

private theorem Noted.add {kept : SettingValue} (noted : ∀ s, Noted before found s)
    (means : setting.name = lowered name)
    (first : given before setting = []) (stands : Stands setting value kept) (other : Setting) :
    Noted (before ++ [(name, value)]) (found ++ [(setting, kept)]) other := by
  by_cases same : other = setting
  · subst same
    cases noted other with
    | absent nothing unset =>
      have once : given (before ++ [(name, value)]) other = [value] := by
        rw [given_append, nothing, given_self means, List.nil_append]
      have set : (found ++ [(other, kept)]).lookup other = some kept := by
        rw [List.lookup_append, unset, Option.none_or, Assoc.lookup_cons, if_pos rfl]
      exact .present once set stands
    | present once =>
      rw [once] at first
      cases first
  · have given_eq : given (before ++ [(name, value)]) other = given before other := by
      rw [given_append, given_other means same, List.append_nil]
    have lookup_eq : (found ++ [(setting, kept)]).lookup other = found.lookup other := by
      rw [List.lookup_append, Assoc.lookup_cons, if_neg same, List.lookup_nil, Option.or_none]
    cases noted other with
    | absent nothing unset => exact .absent (given_eq.trans nothing) (lookup_eq.trans unset)
    | present once set stands => exact .present (given_eq.trans once) (lookup_eq.trans set) stands

/-- One pair either is refused for what is wrong with it, or is taken and noted. -/
theorem collect_cons_total (noted : ∀ s, Noted before found s) (pair : String × String)
    (rest : List (String × String)) :
    (∃ e, collect found (pair :: rest) = .error e ∧ Offends before pair e) ∨
    ∃ more, collect found (pair :: rest) = collect more rest ∧ (∀ e, ¬ Offends before pair e) ∧
      ∀ s, Noted (before ++ [pair]) more s := by
  obtain ⟨name, value⟩ := pair
  cases named : Setting.ofName? name with
  | none =>
    have strange := Setting.ofName?_eq_none_iff.1 named
    refine .inr ⟨found, by rw [collect, named], ?_, ?_⟩
    · rintro e (⟨means, _⟩ | ⟨means, _⟩)
      · exact strange ⟨_, means⟩
      · exact strange ⟨_, means⟩
    · intro s
      have given_eq : given (before ++ [(name, value)]) s = given before s := by
        have passed : given [(name, value)] s = [] := given_unknown (by simpa using strange)
        rw [given_append, passed, List.append_nil]
      cases noted s with
      | absent nothing unset => exact .absent (given_eq.trans nothing) unset
      | present once set stands => exact .present (given_eq.trans once) set stands
  | some setting =>
    have means := Setting.ofName?_eq_some_iff.1 named
    cases noted setting with
    | present once set _ =>
      refine .inl ⟨.repeated setting, ?_, .repeated means (by simp [once])⟩
      rw [collect, named]
      simp [set]
    | absent first unset =>
      rcases readValue_total setting value with ⟨kept, read, stands⟩ | ⟨refusal, refused, numeric, why⟩
      · have taken : collect found ((name, value) :: rest) = collect (found ++ [(setting, kept)]) rest := by
          rw [collect, named]
          simp [unset, read]
        refine .inr ⟨_, taken, ?_, Noted.add noted means first stands⟩
        rintro e (⟨means', again⟩ | ⟨means', _, numeric, why⟩)
        · obtain rfl := Setting.name_injective (means'.trans means.symm)
          exact again first
        · obtain rfl := Setting.name_injective (means'.trans means.symm)
          rw [readValue_refused numeric why] at read
          cases read
      · refine .inl ⟨_, ?_, .notANumber means first numeric why⟩
        rw [collect, named]
        simp [unset, refused]

/-- Taking in pairs goes through to the end, or ends at the first pair that cannot be taken. -/
theorem collect_total (clean : Clean before) (noted : ∀ s, Noted before found s)
    (rest : List (String × String)) :
    (∃ more, collect found rest = .ok more ∧ Clean (before ++ rest) ∧ ∀ s, Noted (before ++ rest) more s) ∨
    ∃ e front pair back, collect found rest = .error e ∧ rest = front ++ pair :: back ∧
      Clean (before ++ front) ∧ Offends (before ++ front) pair e := by
  -- a pair that is taken moves over to `before`, and with it what was found
  induction rest generalizing before found with
  | nil =>
    rw [List.append_nil]
    exact .inl ⟨found, rfl, clean, noted⟩
  | cons pair rest ih =>
    rcases collect_cons_total noted pair rest with ⟨e, refused, offends⟩ | ⟨more, taken, passes, noted⟩
    · refine .inr ⟨e, [], pair, rest, refused, rfl, ?_, ?_⟩
      · rwa [List.append_nil]
      · rwa [List.append_nil]
    · rw [taken]
      rcases ih (clean.snoc passes) noted with ⟨last, done, whole⟩ | ⟨e, front, last, back, refused, rfl, first⟩
      · rw [List.append_assoc] at whole
        exact .inl ⟨last, done, whole⟩
      · rw [List.append_assoc] at first
        exact .inr ⟨e, pair :: front, last, back, refused, rfl, first⟩

/-! ## What is read -/

/-- What it takes to be read, by the values that are given for each setting: no setting has two, each number
is one within sixty-four bits, and both addresses are there. -/
structure Complete (values : Setting → List String) : Prop where
  once : ∀ setting, (values setting).length ≤ 1
  numbers : ∀ setting, setting.isNumeric = true → ∀ text ∈ values setting,
    ∃ n, Decimal.Numeral text.toList n ∧ n ≤ Decimal.maxNat64
  databaseUrl : values .databaseUrl ≠ []
  redisUrl : values .redisUrl ≠ []

/-- The number that is given, if one is. -/
inductive Amount : List String → Option Nat → Prop
  | absent : Amount [] none
  | given {text : String} {n : Nat} (numeral : Decimal.Numeral text.toList n) (fits : n ≤ Decimal.maxNat64) :
    Amount [text] (some n)

/-- Whether a setting has the seconds that are given, as a word and as a length of time. -/
def InSeconds (texts : List String) (word : Option UInt64) (span : Option Span) : Prop :=
  ∃ amount, Amount texts amount ∧ word.map UInt64.toNat = amount ∧
    span.map Span.nanos = amount.map (· * 1000000000)

/-- Whether a setting has the milliseconds that are given or else the usual ones. -/
def InMillis (texts : List String) (usual : Nat) (word : UInt64) (span : Span) : Prop :=
  ∃ amount, Amount texts amount ∧ word.toNat = amount.getD usual ∧ span.nanos = amount.getD usual * 1000000

/-- A configuration has the values that are given and else the defaults. -/
structure Holds (config : Config) (values : Setting → List String) : Prop where
  bindAddr : config.bindAddr = (values .bindAddr).head?.getD "0.0.0.0:3000"
  databaseUrl : values .databaseUrl = [config.databaseUrl]
  redisUrl : values .redisUrl = [config.redisUrl]
  queueName : config.queueName = (values .queueName).head?.getD "kyc_jobs"
  workerId : config.workerId = (values .workerId).head?
  jwtSecret : config.jwtSecret = (values .jwtSecret).head?
  cacheTtl : InSeconds (values .cacheTtlSecs) config.cacheTtlSecs config.cacheTtl
  cacheTimeout : InMillis (values .cacheTimeoutMs) 250 config.cacheTimeoutMs config.cacheTimeout
  executorTimeout : InSeconds (values .executorTimeoutSecs) config.executorTimeoutSecs config.executorTimeout
  workerMetricsAddr : config.workerMetricsAddr = (values .workerMetricsAddr).head?
  simulatedLatency : InMillis (values .simulatedLatencyMs) 5000 config.simulatedLatencyMs config.simulatedLatency

/-- Why pairs are not read: a pair cannot be taken after those before it, of which each could be, or all can
be taken and a required setting is missing. -/
inductive Fault (pairs : List (String × String)) : ConfigError → Prop
  | offends {before after : List (String × String)} {pair : String × String} {e : ConfigError}
    (split : pairs = before ++ pair :: after) (clean : Clean before) (offends : Offends before pair e) :
    Fault pairs e
  | noDatabase (clean : Clean pairs) (missing : given pairs .databaseUrl = []) :
    Fault pairs (.missing .databaseUrl)
  | noBroker (clean : Clean pairs) (there : given pairs .databaseUrl ≠ [])
    (missing : given pairs .redisUrl = []) :
    Fault pairs (.missing .redisUrl)

/-- What reading pairs has to come to. -/
def Correct (pairs : List (String × String)) : Except ConfigError Config → Prop
  | .ok config => Complete (given pairs) ∧ config.Holds (given pairs)
  | .error e => Fault pairs e

private theorem Amount.unique {texts : List String} {a b : Option Nat} (amount : Amount texts a)
    (other : Amount texts b) : a = b := by
  cases amount with
  | absent =>
    cases other
    rfl
  | given numeral _ =>
    cases other with
    | given numeral' _ => rw [numeral.unique numeral']

private theorem InSeconds.unique {texts : List String} {word word' : Option UInt64} {span span' : Option Span}
    (kept : InSeconds texts word span) (other : InSeconds texts word' span') : word = word' := by
  obtain ⟨amount, given, same, _⟩ := kept
  obtain ⟨amount', given', same', _⟩ := other
  obtain rfl := given.unique given'
  exact Option.map_injective (fun _ _ => UInt64.toNat_inj.1) (same.trans same'.symm)

private theorem InMillis.unique {texts : List String} {usual : Nat} {word word' : UInt64} {span span' : Span}
    (kept : InMillis texts usual word span) (other : InMillis texts usual word' span') : word = word' := by
  obtain ⟨amount, given, same, _⟩ := kept
  obtain ⟨amount', given', same', _⟩ := other
  obtain rfl := given.unique given'
  exact UInt64.toNat_inj.1 (same.trans same'.symm)

/-- The values that are given leave no choice. -/
theorem Holds.unique {values : Setting → List String} {config' : Config} (holds : config.Holds values)
    (other : config'.Holds values) : config = config' := by
  have bindAddr := holds.bindAddr.trans other.bindAddr.symm
  have databaseUrl := List.singleton_inj.1 (holds.databaseUrl.symm.trans other.databaseUrl)
  have redisUrl := List.singleton_inj.1 (holds.redisUrl.symm.trans other.redisUrl)
  have queueName := holds.queueName.trans other.queueName.symm
  have workerId := holds.workerId.trans other.workerId.symm
  have jwtSecret := holds.jwtSecret.trans other.jwtSecret.symm
  have cacheTtl := holds.cacheTtl.unique other.cacheTtl
  have cacheTimeout := holds.cacheTimeout.unique other.cacheTimeout
  have executorTimeout := holds.executorTimeout.unique other.executorTimeout
  have workerMetricsAddr := holds.workerMetricsAddr.trans other.workerMetricsAddr.symm
  have simulatedLatency := holds.simulatedLatency.unique other.simulatedLatency
  cases config
  cases config'
  rw [mk.injEq]
  exact ⟨bindAddr, databaseUrl, redisUrl, queueName, workerId, jwtSecret, cacheTtl, cacheTimeout, executorTimeout,
    workerMetricsAddr, simulatedLatency⟩

private theorem Noted.text? (noted : Noted pairs found setting) (plain : setting.isNumeric = false) :
    text? found setting = (given pairs setting).head? := by
  cases noted with
  | absent nothing unset => simp [Config.text?, nothing, unset]
  | present once set stands =>
    cases stands with
    | text _ => simp [Config.text?, once, set]
    | number numeric _ =>
      rw [plain] at numeric
      cases numeric

private theorem Noted.number? (noted : Noted pairs found setting) (numeric : setting.isNumeric = true) :
    Amount (given pairs setting) ((number? found setting).map UInt64.toNat) := by
  cases noted with
  | absent nothing unset =>
    rw [nothing, Config.number?, unset]
    exact .absent
  | present once set stands =>
    cases stands with
    | text plain =>
      rw [plain] at numeric
      cases numeric
    | number _ numeral =>
      rw [once, Config.number?, set]
      exact .given numeral (Nat.le_of_lt_succ (UInt64.toNat_lt _))

private theorem Noted.inSeconds (noted : Noted pairs found setting) (numeric : setting.isNumeric = true) :
    InSeconds (given pairs setting) (Config.number? found setting)
      ((Config.number? found setting).map Span.ofSeconds) := by
  refine ⟨_, noted.number? numeric, rfl, ?_⟩
  rw [Option.map_map, Option.map_map]
  rfl

private theorem Noted.inMillis {usual : UInt64} (noted : Noted pairs found setting)
    (numeric : setting.isNumeric = true) :
    InMillis (given pairs setting) usual.toNat ((Config.number? found setting).getD usual)
      (.ofMillis ((Config.number? found setting).getD usual)) := by
  have word : ((Config.number? found setting).map UInt64.toNat).getD usual.toNat =
      ((Config.number? found setting).getD usual).toNat := Option.getD_map ..
  exact ⟨_, noted.number? numeric, word.symm, by rw [word]; rfl⟩

private theorem Noted.length_le (noted : Noted pairs found setting) : (given pairs setting).length ≤ 1 := by
  cases noted with
  | absent nothing => simp [nothing]
  | present once => simp [once]

private theorem Noted.isNumber (noted : Noted pairs found setting) (numeric : setting.isNumeric = true)
    (mem : text ∈ given pairs setting) : ∃ n, Decimal.Numeral text.toList n ∧ n ≤ Decimal.maxNat64 := by
  have amount := noted.number? numeric
  generalize given pairs setting = texts, (Config.number? found setting).map UInt64.toNat = number at amount mem
  cases amount with
  | absent => cases mem
  | given numeral fits =>
    obtain rfl := List.mem_singleton.1 mem
    exact ⟨_, numeral, fits⟩

/-- What was found makes a configuration unless a required setting is missing. -/
theorem ofFound_correct (clean : Clean pairs) (noted : ∀ s, Noted pairs found s) :
    Correct pairs (ofFound found) := by
  have database := (noted .databaseUrl).text? rfl
  have broker := (noted .redisUrl).text? rfl
  have once := fun s => (noted s).length_le
  rw [ofFound]
  cases atDatabase : given pairs .databaseUrl with
  | nil =>
    rw [database, atDatabase]
    exact Fault.noDatabase clean atDatabase
  | cons databaseUrl more =>
    cases atBroker : given pairs .redisUrl with
    | nil =>
      rw [database, broker, atDatabase, atBroker]
      exact Fault.noBroker clean (by simp [atDatabase]) atBroker
    | cons redisUrl others =>
      rw [database, broker, atDatabase, atBroker]
      constructor
      · constructor
        · exact once
        · exact fun s numeric text mem => (noted s).isNumber numeric mem
        · simp [atDatabase]
        · simp [atBroker]
      · have alone : more = [] := by simpa [atDatabase] using once .databaseUrl
        have single : others = [] := by simpa [atBroker] using once .redisUrl
        constructor
        · simp [(noted .bindAddr).text? rfl]
        · simp [atDatabase, alone]
        · simp [atBroker, single]
        · simp [(noted .queueName).text? rfl]
        · exact (noted .workerId).text? rfl
        · exact (noted .jwtSecret).text? rfl
        · exact (noted .cacheTtlSecs).inSeconds rfl
        · exact (noted .cacheTimeoutMs).inMillis rfl
        · exact (noted .executorTimeoutSecs).inSeconds rfl
        · exact (noted .workerMetricsAddr).text? rfl
        · exact (noted .simulatedLatencyMs).inMillis rfl

private theorem read_correct (pairs : List (String × String)) : Correct pairs (read pairs) := by
  have fresh : ∀ setting, Noted [] [] setting := fun setting => .absent rfl rfl
  rw [read]
  rcases collect_total clean_nil fresh pairs with
    ⟨found, taken, clean, noted⟩ | ⟨e, _, _, _, refused, split, first⟩
  · rw [taken]
    exact ofFound_correct clean noted
  · rw [refused]
    exact Fault.offends split first.1 first.2

/-- If nothing is wrong with the values, each pair can be taken. -/
theorem Complete.clean (complete : Complete (given pairs)) : Clean pairs := by
  rintro before ⟨name, value⟩ after rfl e offends
  have all (setting : Setting) (means : setting.name = lowered name) :
      given (before ++ (name, value) :: after) setting =
        given before setting ++ value :: given after setting := by
    rw [← List.singleton_append, given_append, given_append, given_self means, List.singleton_append]
  cases offends with
  | @repeated _ _ setting means again =>
    have short := complete.once setting
    have some := List.length_pos_of_ne_nil again
    rw [all setting means, List.length_append, List.length_cons] at short
    omega
  | @notANumber _ _ setting refusal means first numeric why =>
    obtain ⟨n, numeral, fits⟩ := complete.numbers setting numeric value (by rw [all setting means]; simp)
    have read := Decimal.natural?_eq_ok_iff.2 ⟨numeral, fits⟩
    rw [Decimal.natural?_eq_error_iff.2 why] at read
    cases read

private theorem Fault.not_complete (fault : Fault pairs e) : ¬ Complete (given pairs) := by
  intro complete
  cases fault with
  | @offends before after pair _ split _ offends => exact complete.clean before pair after split e offends
  | noDatabase _ missing => exact complete.databaseUrl missing
  | noBroker _ _ missing => exact complete.redisUrl missing

/-- Pairs that were all taken do not go beyond the first that cannot be. -/
theorem Clean.ends {middle after rest : List (String × String)} (clean : Clean (before ++ middle))
    (split : pair :: after = middle ++ rest) (offends : Offends before pair e) : middle = [] := by
  cases middle with
  | nil => rfl
  | cons next middle =>
    obtain ⟨rfl, _⟩ := List.cons.inj split
    exact absurd offends (clean before pair middle rfl e)

private theorem Fault.unique {e' : ConfigError} (fault : Fault pairs e) (other : Fault pairs e') :
    e = e' := by
  cases fault with
  | @offends front back last _ split clean offends =>
    cases other with
    | @offends front' back' last' _ split' clean' offends' =>
      -- of two places, the later one has the earlier among the pairs that were all taken
      rcases List.append_eq_append_iff.1 (split.symm.trans split') with ⟨middle, rfl, tail⟩ | ⟨middle, rfl, tail⟩
      · obtain rfl := clean'.ends tail offends
        rw [List.append_nil] at offends'
        cases tail
        exact offends.unique offends'
      · obtain rfl := clean.ends tail offends'
        rw [List.append_nil] at offends
        cases tail
        exact offends.unique offends'
    | noDatabase clean' => exact absurd offends (clean' front last back split e)
    | noBroker clean' => exact absurd offends (clean' front last back split e)
  | noDatabase clean missing =>
    cases other with
    | @offends front back last _ split _ offends => exact absurd offends (clean front last back split e')
    | noDatabase => rfl
    | noBroker _ there => exact absurd missing there
  | noBroker clean there =>
    cases other with
    | @offends front back last _ split _ offends => exact absurd offends (clean front last back split e')
    | noDatabase _ missing => exact absurd missing there
    | noBroker => rfl

private theorem Correct.unique {outcome outcome' : Except ConfigError Config}
    (correct : Correct pairs outcome) (other : Correct pairs outcome') : outcome = outcome' := by
  cases outcome with
  | ok config =>
    cases outcome' with
    | ok config' => rw [correct.2.unique other.2]
    | error e => exact absurd correct.1 (Fault.not_complete other)
  | error e =>
    cases outcome' with
    | ok config => exact absurd other.1 (Fault.not_complete correct)
    | error e' => rw [Fault.unique correct other]

/-- Pairs are read as a configuration if nothing is wrong with their values and it has them, and otherwise the
error is the first thing that is wrong. -/
theorem read_eq_iff {outcome : Except ConfigError Config} :
    read pairs = outcome ↔ Correct pairs outcome := by
  constructor
  · rintro rfl
    exact read_correct pairs
  · exact (read_correct pairs).unique

/-- Neither the order of the pairs nor pairs with other names change what is given, if no setting is given twice. -/
theorem given_indifferent {strangers : List (String × String)}
    (once : ∀ setting, (given pairs setting).length ≤ 1)
    (strange : ∀ pair ∈ strangers, ¬ Known pair.1) (mixed : others.Perm (pairs ++ strangers)) :
    given others = given pairs := by
  funext setting
  have same : (given others setting).Perm (given (pairs ++ strangers) setting) := given_perm mixed
  rw [given_append, given_unknown strange, List.append_nil] at same
  cases values : given pairs setting with
  | nil => rwa [values, List.perm_nil] at same
  | cons value more =>
    have alone : more = [] := by simpa [values] using once setting
    rwa [values, alone, List.perm_singleton, ← alone] at same

/-- Reading is exact and does not depend on the order. It succeeds if and only if no setting is given twice, each
number is one and both addresses are there; then the configuration has the values that are given, with times of
exactly so many seconds and milliseconds, and else the defaults, and the same is read from the pairs in any other
order with any pairs of other names among them. Otherwise the error is that of the first pair that cannot be
taken, or else that of the first setting that is missing. -/
theorem read_exact (pairs : List (String × String)) :
    ((∃ config, read pairs = .ok config) ↔ Complete (given pairs)) ∧
    (∀ config, read pairs = .ok config → config.Holds (given pairs) ∧
      ∀ strangers, (∀ pair ∈ strangers, ¬ Known pair.1) → ∀ others : List (String × String),
        others.Perm (pairs ++ strangers) → read others = .ok config) ∧
    ∀ e, read pairs = .error e ↔ Fault pairs e := by
  refine ⟨⟨?_, ?_⟩, ?_, fun e => read_eq_iff⟩
  · rintro ⟨config, taken⟩
    exact (read_eq_iff.1 taken).1
  · intro complete
    cases outcome : read pairs with
    | ok config => exact ⟨config, rfl⟩
    | error e => exact absurd complete (Fault.not_complete (read_eq_iff.1 outcome))
  · intro config taken
    obtain ⟨complete, holds⟩ := read_eq_iff.1 taken
    refine ⟨holds, fun strangers strange others mixed => read_eq_iff.2 ?_⟩
    rw [Correct, given_indifferent complete.once strange mixed]
    exact ⟨complete, holds⟩

/-- Settings in names of any case, one at the largest word there is and one with zeros before it. -/
def spread : List (String × String) :=
  [("REDIS_URL", "r"), ("Cache_Ttl_Secs", "+18446744073709551615"), ("database_url", "d"),
    ("SIMULATED_LATENCY_MS", "007")]

/-- They are read in any order. With two more that cannot be taken, the first of these is the error. -/
theorem read_exact_spread :
    (∃ config, read spread = .ok config ∧ config.Holds (given spread) ∧
      config.cacheTtl.map Span.nanos = some 18446744073709551615000000000 ∧
      config.simulatedLatency.nanos = 7000000 ∧ read (("HOME", "/root") :: spread.reverse) = .ok config) ∧
    read (spread ++ [("CACHE_TIMEOUT_MS", "4x"), ("redis_url", "s")]) =
      .error (.notANumber .cacheTimeoutMs "4x" .notADigit) := by
  have taken : read spread = .ok ⟨"0.0.0.0:3000", "d", "r", "kyc_jobs", none, none, some 18446744073709551615, 250,
      none, none, 7⟩ := by decide +kernel
  have complete := (read_exact spread).1.1 ⟨_, taken⟩
  obtain ⟨holds, indifferent⟩ := (read_exact spread).2.1 _ taken
  refine ⟨⟨_, taken, holds, rfl, rfl, ?_⟩, ?_⟩
  · have strange : ∀ pair ∈ [("HOME", "/root")], ¬ Known pair.1 := by
      rintro _ (_ | ⟨_, ⟨⟩⟩)
      exact Setting.ofName?_eq_none_iff.1 (by decide +kernel)
    refine indifferent _ strange _ ?_
    exact (List.perm_append_singleton _ _).symm.trans (List.Perm.append_right _ spread.reverse_perm)
  · refine ((read_exact _).2.2 _).2 (.offends rfl complete.clean ?_)
    have read : Decimal.natural? Decimal.maxNat64 "4x".toList = .error .notADigit := by decide +kernel
    exact .notANumber (by decide +kernel) (by decide +kernel) rfl (Decimal.natural?_eq_error_iff.1 read)

end Config

end Vetting
