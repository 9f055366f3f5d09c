import ScrapeRelay.Config
import ScrapeRelay.Failure
import ScrapeRelay.Toml.Document

/-!
# Reading a configuration

A configuration is read from the table that a document writes. Entries are read
in the order of the document and the first bad one is reported; an entry that is
missing is reported when all entries of its table were read. Entries with other
names are skipped, except in a provider, where they are its options.
-/

namespace ScrapeRelay.Config

open ScrapeRelay.Toml (Entries)

abbrev Decoded (α : Type) := Except ConfigFault α

def decodeText : Toml → Decoded String
  | .text value => .ok value
  | _ => .error .mistyped

def decodeBool : Toml → Decoded Bool
  | .bool value => .ok value
  | _ => .error .mistyped

def decodeDuration : Toml → Decoded Duration
  | .text value =>
      match Duration.parse value with
      | .ok duration => .ok duration
      | .error text => .error (.badDuration text)
  | _ => .error .mistyped

def decodeList {α : Type} (decode : Toml → Decoded α) : Toml → Decoded (List α)
  | .array elements => elements.mapM decode
  | _ => .error .mistyped

def decodeMap {α : Type} (decode : Toml → Decoded α) (value : Toml) : Decoded (SortedMap α) :=
  match value.entries? with
  | some entries =>
      (entries.mapM (fun entry => (decode entry.2).map (fun value => (entry.1, value)))).map
        SortedMap.ofList
  | none => .error .mistyped

/-- Read entries in order into a draft of what they describe. -/
def decodeEntries {α : Type} (read : α → String → Toml → Decoded α) (draft : α) :
    Entries → Decoded α
  | [] => .ok draft
  | (key, value) :: rest =>
      match read draft key value with
      | .ok draft => decodeEntries read draft rest
      | .error fault => .error fault

/-- Read the elements of an array as the values of the given keys. Elements that
are missing leave their keys out, and others are skipped. -/
def positional (keys : List String) (elements : List Toml) : Entries := keys.zip elements

def decodeFields {α : Type} (keys : List String) (read : α → String → Toml → Decoded α)
    (draft : α) : Toml → Decoded α
  | .array elements => decodeEntries read draft (positional keys elements)
  | value =>
      match value.entries? with
      | some entries => decodeEntries read draft entries
      | none => .error .mistyped

def required {α : Type} (name : String) : Option α → Decoded α
  | some value => .ok value
  | none => .error (.missingField name)

structure StaticDraft where
  targets : Option (List String)
  labels : Option Labels

def StaticDraft.read (draft : StaticDraft) (key : String) (value : Toml) : Decoded StaticDraft :=
  if key = "targets" then
    (decodeList decodeText value).map (fun targets => { draft with targets := some targets })
  else if key = "labels" then
    (decodeMap decodeText value).map (fun labels => { draft with labels := some labels })
  else .ok draft

/-- Whether a value is an array of a number of fields that static targets have not. -/
def isMisfit : Toml → Bool
  | .array elements => elements.isEmpty || 2 < elements.length
  | _ => false

def decodeStatic (value : Toml) : Decoded StaticTargets := do
  if isMisfit value then .error .mistyped
  else
    let draft ← decodeFields ["targets", "labels"] StaticDraft.read ⟨none, none⟩ value
    let targets ← required "targets" draft.targets
    return ⟨targets, draft.labels.getD .empty⟩

/-- The date or time that an entry writes. Entries behind it are skipped or refused. -/
def decodeDatetime (skips : Bool) : Toml → Entries → Decoded Toml
  | .text text, rest =>
      match Toml.datetime? text with
      | some datetime =>
          if skips || rest.isEmpty then .ok (.datetime datetime) else .error .mistyped
      | none => .error .mistyped
  | _, _ => .error .mistyped

mutual

/-- The value of an option. A table that begins with the key of dates and times stands for
a date or a time. -/
def decodeOption (skips : Bool) : Toml → Decoded Toml
  | .array elements => (decodeOptionElements skips elements).map Toml.array
  | .table entries =>
      match Toml.dated? entries with
      | some (value, rest) => decodeDatetime skips value rest
      | none => (decodeOptions skips entries).map Toml.table
  | value => .ok value

def decodeOptionElements (skips : Bool) : List Toml → Decoded (List Toml)
  | [] => .ok []
  | element :: rest =>
      match decodeOption skips element with
      | .ok element => (decodeOptionElements skips rest).map (element :: ·)
      | .error fault => .error fault

def decodeOptions (skips : Bool) : Entries → Decoded Entries
  | [] => .ok []
  | (key, value) :: rest =>
      match decodeOption skips value with
      | .ok value => (decodeOptions skips rest).map ((key, value) :: ·)
      | .error fault => .error fault

end

/-- A provider while it is read. The options are in reverse. -/
structure ProviderDraft where
  kind : Option String
  options : Entries

def ProviderDraft.read (draft : ProviderDraft) (key : String) (value : Toml) :
    Decoded ProviderDraft :=
  if key = "kind" then (decodeText value).map (fun kind => { draft with kind := some kind })
  else .ok { draft with options := (key, value) :: draft.options }

def decodeProvider (value : Toml) : Decoded Provider := do
  match value.entries? with
  | none => .error .mistyped
  | some entries =>
      let draft ← decodeEntries ProviderDraft.read ⟨none, []⟩ entries
      let kind ← required "kind" draft.kind
      let options ← decodeOptions false draft.options.reverse
      return ⟨kind, .ofEntries options⟩

structure DiscoveryDraft where
  staticTargets : Option (List StaticTargets)
  providers : Option (List Provider)

def DiscoveryDraft.read (draft : DiscoveryDraft) (key : String) (value : Toml) :
    Decoded DiscoveryDraft :=
  if key = "static_configs" then
    (decodeList decodeStatic value).map (fun groups => { draft with staticTargets := some groups })
  else if key = "providers" then
    (decodeList decodeProvider value).map (fun found => { draft with providers := some found })
  else .ok draft

def decodeDiscovery (entries : Entries) : Decoded Discovery := do
  let draft ← decodeEntries DiscoveryDraft.read ⟨none, none⟩ entries
  return ⟨draft.staticTargets.getD [], draft.providers.getD []⟩

structure JobDraft where
  name : Option String
  scrapeInterval : Option Duration
  scrapeTimeout : Option Duration
  metricsPath : Option String
  scheme : Option String
  honorLabels : Option Bool

def JobDraft.read (draft : JobDraft) (key : String) (value : Toml) : Decoded JobDraft :=
  if key = "job_name" then
    (decodeText value).map (fun name => { draft with name := some name })
  else if key = "scrape_interval" then
    (decodeDuration value).map (fun interval => { draft with scrapeInterval := some interval })
  else if key = "scrape_timeout" then
    (decodeDuration value).map (fun timeout => { draft with scrapeTimeout := some timeout })
  else if key = "metrics_path" then
    (decodeText value).map (fun path => { draft with metricsPath := some path })
  else if key = "scheme" then
    (decodeText value).map (fun scheme => { draft with scheme := some scheme })
  else if key = "honor_labels" then
    (decodeBool value).map (fun honor => { draft with honorLabels := some honor })
  else .ok draft

def decodeJob (value : Toml) : Decoded Job := do
  match value.entries? with
  | none => .error .mistyped
  | some entries =>
      let draft ← decodeEntries JobDraft.read ⟨none, none, none, none, none, none⟩ entries
      let name ← required "job_name" draft.name
      let discovery ← decodeDiscovery entries
      return ⟨name, draft.scrapeInterval, draft.scrapeTimeout,
        draft.metricsPath.getD defaultMetricsPath, draft.scheme.getD defaultScheme,
        draft.honorLabels.getD false, discovery⟩

def Global.read (global : Global) (key : String) (value : Toml) : Decoded Global :=
  if key = "scrape_interval" then
    (decodeDuration value).map (fun interval => { global with scrapeInterval := interval })
  else if key = "scrape_timeout" then
    (decodeDuration value).map (fun timeout => { global with scrapeTimeout := timeout })
  else .ok global

def decodeGlobal (value : Toml) : Decoded Global :=
  decodeFields ["scrape_interval", "scrape_timeout"] Global.read .default value

def Scrape.read (scrape : Scrape) (key : String) (value : Toml) : Decoded Scrape :=
  if key = "global" then
    (decodeGlobal value).map (fun global => { scrape with global := global })
  else if key = "scrape_configs" then
    (decodeList decodeJob value).map (fun jobs => { scrape with jobs := jobs })
  else .ok scrape

def decodeScrape (value : Toml) : Decoded Scrape :=
  decodeFields ["global", "scrape_configs"] Scrape.read .default value

/-- A receiver while it is read, with its name apart. -/
structure ReceiverDraft where
  name : Option String
  receiver : Receiver

def ReceiverDraft.read (draft : ReceiverDraft) (key : String) (value : Toml) :
    Decoded ReceiverDraft :=
  let set (change : Receiver → Receiver) : ReceiverDraft :=
    { draft with receiver := change draft.receiver }
  if key = "name" then (decodeText value).map (fun name => { draft with name := some name })
  else if key = "prometheus" then
    (decodeScrape value).map (fun scrape => set ({ · with scrape := scrape }))
  else if key = "include_filter" then
    (decodeMap (decodeList decodeText) value).map
      (fun names => set ({ · with includeFilter := names }))
  else if key = "job_staleness" then
    (decodeDuration value).map (fun staleness => set ({ · with staleness := staleness }))
  else if key = "startup_grace" then
    (decodeDuration value).map (fun grace => set ({ · with startupGrace := grace }))
  else .ok draft

def decodeReceiver (entries : Entries) : Decoded Receiver := do
  let draft ← decodeEntries ReceiverDraft.read ⟨none, .named ""⟩ entries
  let name ← required "name" draft.name
  return { draft.receiver with name := name }

def parse (source : String) : Except Failure Receiver :=
  match Toml.parse? source with
  | none => .error (.badConfig .malformed)
  | some entries =>
      match decodeReceiver entries with
      | .ok receiver => .ok receiver
      | .error fault => .error (.badConfig fault)

/-- What stands where a configuration file is looked for. -/
inductive Source where
  | file (content : ByteArray)
  | directory
  | missing

def load : Source → Except Failure Receiver
  | .missing => .error (.unreadableConfig .notFound)
  | .directory => .error (.unreadableConfig .isDirectory)
  | .file content =>
      match String.fromUTF8? content with
      | some text => parse text
      | none => .error (.unreadableConfig .invalidData)

end ScrapeRelay.Config
