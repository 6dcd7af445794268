import ContentIndex.Json.Record
import ContentIndex.Text.Base64

/-
  Settings of the indexer and of the query compiler. Every setting has a default. Settings are read
  from JSON text and are then checked: hosts, page size and the number of attempts must not be
  empty or zero, and the first of the three at fault is reported.
-/

namespace ContentIndex

open Json (Value Reader Tree)
open Number (Double)

/-- A name and a password. -/
structure BasicAuth where
  username : String := ""
  password : String := ""
deriving DecidableEq, Repr

structure Config where
  /-- Engine hosts, tried in turn. -/
  hosts : List String := ["http://localhost:9200"]
  /-- The base name; the index of a scope is named after both. -/
  indexName : String := "content"
  engineMajorVersion : UInt32 := 7
  apiKey : Option String := none
  basicAuth : Option BasicAuth := none
  requestTimeoutMs : UInt64 := 15000
  bulkTimeoutMs : UInt64 := 30000
  /-- How many hosts a request may be sent to before it fails. -/
  maxHostAttempts : UInt64 := 3
  bulkPageSize : UInt64 := 350
  bulkMaxAttempts : UInt64 := 5
  bulkRetryDelayMs : UInt64 := 0
  bulkFlushBytes : UInt64 := 8388608
  /-- The page size that stands for an unbounded one. -/
  maxResultsWindow : UInt64 := 10000
  searchFields : List String := ["post_title", "post_excerpt", "post_content"]
  phraseBoost : Double := .ofNat 4
  andBoost : Double := .ofNat 2
  fuzziness : UInt32 := 1
  indexableStatuses : List String := ["publish"]
  /-- Statuses that are also accepted for the attachment types. -/
  statusExceptions : List String := ["inherit"]
  /-- Types of items whose status follows their parent. -/
  attachmentTypes : List String := ["attachment"]
  indexableTypes : List String := ["post", "page"]
  /-- Statuses that a reader without privileges sees. -/
  publicStatuses : List String := ["publish"]
  privateStatuses : List String := ["private"]
  stateKeyPrefix : String := "search_sync:"
  /-- The depth to which groups of query clauses may be nested. -/
  maxQueryDepth : UInt64 := 16
deriving DecidableEq

/-- What is wrong with settings. -/
inductive ConfigError where
  | unreadable
  | noHosts
  | zeroPageSize
  | zeroAttempts
deriving DecidableEq, Repr

def ConfigError.message : ConfigError → String
  | .unreadable => "invalid config: no JSON record of settings"
  | .noHosts => "hosts must not be empty"
  | .zeroPageSize => "bulk_page_size must be > 0"
  | .zeroAttempts => "bulk_max_attempts must be > 0"

namespace Config

/-- Engines before version 7 put documents under a mapping type. -/
def usesMappingTypes (c : Config) : Bool :=
  c.engineMajorVersion < 7

/-- The name of the index of a scope; the empty scope is the base index. -/
def indexForScope (c : Config) : Option String → String
  | none => c.indexName
  | some s => if s = "" then c.indexName else c.indexName ++ "-" ++ s

/-- The value of the Authorization header; a key goes before a password. -/
def authorization (c : Config) : Option String :=
  match c.apiKey with
  | some k => some ("ApiKey " ++ k)
  | none =>
    c.basicAuth.map fun a => "Basic " ++ Text.base64 (a.username ++ ":" ++ a.password)

/-- The first fault of the settings. -/
def fault? (c : Config) : Option ConfigError :=
  if c.hosts.isEmpty then some .noHosts
  else if c.bulkPageSize = 0 then some .zeroPageSize
  else if c.bulkMaxAttempts = 0 then some .zeroAttempts
  else none

def validate (c : Config) : Except ConfigError Config :=
  match c.fault? with
  | some e => .error e
  | none => .ok c

/-! ## JSON form -/

def readAuth : Reader BasicAuth :=
  Reader.record [
    .of "username" Reader.string fun x a => { a with username := x },
    .of "password" Reader.string fun x a => { a with password := x }] {}

/-- A list of strings. -/
def strings : Reader (List String) := .list Reader.string

def fields : List (Json.Field Config) := List.map Json.Field.optional [
  .of "hosts" strings fun x c => { c with hosts := x },
  .of "index_name" Reader.string fun x c => { c with indexName := x },
  .of "engine_major_version" Reader.uint32 fun x c => { c with engineMajorVersion := x },
  .of "api_key" (.nullable Reader.string) fun x c => { c with apiKey := x },
  .of "basic_auth" (.nullable readAuth) fun x c => { c with basicAuth := x },
  .of "request_timeout_ms" Reader.uint64 fun x c => { c with requestTimeoutMs := x },
  .of "bulk_timeout_ms" Reader.uint64 fun x c => { c with bulkTimeoutMs := x },
  .of "max_host_attempts" Reader.uint64 fun x c => { c with maxHostAttempts := x },
  .of "bulk_page_size" Reader.uint64 fun x c => { c with bulkPageSize := x },
  .of "bulk_max_attempts" Reader.uint64 fun x c => { c with bulkMaxAttempts := x },
  .of "bulk_retry_delay_ms" Reader.uint64 fun x c => { c with bulkRetryDelayMs := x },
  .of "bulk_flush_bytes" Reader.uint64 fun x c => { c with bulkFlushBytes := x },
  .of "max_results_window" Reader.uint64 fun x c => { c with maxResultsWindow := x },
  .of "search_fields" strings fun x c => { c with searchFields := x },
  .of "phrase_boost" Reader.double fun x c => { c with phraseBoost := x },
  .of "and_boost" Reader.double fun x c => { c with andBoost := x },
  .of "fuzziness" Reader.uint32 fun x c => { c with fuzziness := x },
  .of "indexable_statuses" strings fun x c => { c with indexableStatuses := x },
  .of "status_exceptions" strings fun x c => { c with statusExceptions := x },
  .of "attachment_types" strings fun x c => { c with attachmentTypes := x },
  .of "indexable_types" strings fun x c => { c with indexableTypes := x },
  .of "public_statuses" strings fun x c => { c with publicStatuses := x },
  .of "private_statuses" strings fun x c => { c with privateStatuses := x },
  .of "state_key_prefix" Reader.string fun x c => { c with stateKeyPrefix := x },
  .of "max_query_depth" Reader.uint64 fun x c => { c with maxQueryDepth := x }]

def read : Reader Config :=
  Reader.record fields {}

/-- Settings from JSON text, checked. -/
def ofText (s : String) : Except ConfigError Config :=
  match (Tree.ofText? s).map read with
  | some (.ok c) => c.validate
  | _ => .error .unreadable

/-- All settings, under the names by which they are read. -/
def toJson (c : Config) : Value :=
  .object [
    ("hosts", .strings c.hosts),
    ("index_name", .string c.indexName),
    ("engine_major_version", .ofNat c.engineMajorVersion.toNat),
    ("api_key", .ofOption .string c.apiKey),
    ("basic_auth", .ofOption (fun a => .object [("username", .string a.username),
      ("password", .string a.password)]) c.basicAuth),
    ("request_timeout_ms", .ofUInt64 c.requestTimeoutMs),
    ("bulk_timeout_ms", .ofUInt64 c.bulkTimeoutMs),
    ("max_host_attempts", .ofUInt64 c.maxHostAttempts),
    ("bulk_page_size", .ofUInt64 c.bulkPageSize),
    ("bulk_max_attempts", .ofUInt64 c.bulkMaxAttempts),
    ("bulk_retry_delay_ms", .ofUInt64 c.bulkRetryDelayMs),
    ("bulk_flush_bytes", .ofUInt64 c.bulkFlushBytes),
    ("max_results_window", .ofUInt64 c.maxResultsWindow),
    ("search_fields", .strings c.searchFields),
    ("phrase_boost", .ofDouble c.phraseBoost),
    ("and_boost", .ofDouble c.andBoost),
    ("fuzziness", .ofNat c.fuzziness.toNat),
    ("indexable_statuses", .strings c.indexableStatuses),
    ("status_exceptions", .strings c.statusExceptions),
    ("attachment_types", .strings c.attachmentTypes),
    ("indexable_types", .strings c.indexableTypes),
    ("public_statuses", .strings c.publicStatuses),
    ("private_statuses", .strings c.privateStatuses),
    ("state_key_prefix", .string c.stateKeyPrefix),
    ("max_query_depth", .ofUInt64 c.maxQueryDepth)]

end Config
end ContentIndex
