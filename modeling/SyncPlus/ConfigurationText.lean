import SyncPlus.ConfigurationTransfer

/-!
# Documents as text

How a configuration document is written: one member a line, two spaces a
level, in the order of the fields. A codec that knows this text of one
document is enough to follow an export and an import of it.
-/

namespace SyncPlus

def jsonString (text : String) : String := "\"" ++ text ++ "\""

/-- The lines of a member of an object. -/
def jsonMember (name : String) : List String → List String
  | [] => []
  | first :: rest => (jsonString name ++ ": " ++ first) :: rest

/-- The lines of a sequence of values, one level in. -/
def jsonItems : List (List String) → List String
  | [] => []
  | [item] => item.map ("  " ++ ·)
  | item :: rest =>
      (item.dropLast.map ("  " ++ ·)) ++ (item.getLast?.map fun last => "  " ++ last ++ ",").toList ++
        jsonItems rest

def jsonObject (members : List (String × List String)) : List String :=
  ["\x7b"] ++ jsonItems (members.map fun member => jsonMember member.1 member.2) ++ ["\x7d"]

def jsonArray (items : List (List String)) : List String :=
  if items.isEmpty then ["[]"] else ["["] ++ jsonItems items ++ ["]"]

def jsonBool (value : Bool) : List String := [if value then "true" else "false"]

def jsonOption {α : Type} (f : α → List String) (value : Option α) : List String :=
  (value.map f).getD ["null"]

def jsonText (text : String) : List String := [jsonString text]

def ExportPeer.json : ExportPeer → List String
  | .local name root => jsonObject
      [("kind", jsonText "local"), ("name", jsonText name), ("root", jsonText root)]
  | .ssh name server username port identity authentication remotePath => jsonObject
      [("kind", jsonText "ssh"), ("name", jsonText name), ("server", jsonText server),
        ("username", jsonText username), ("port", [toString port]),
        ("identity", jsonOption jsonText identity),
        ("authentication", jsonText (match authentication with
          | .key => "key"
          | .agent => "agent"
          | .interactive => "interactive")),
        ("remote_path", jsonText remotePath)]

def ExportOptions.json (options : ExportOptions) : List String :=
  jsonObject [("safe_delete", jsonBool options.safeDelete),
    ("destination_cleanup", jsonBool options.destinationCleanup),
    ("deletion_method", jsonOption (fun
      | .trash => jsonText "trash"
      | .permanentRemoval => jsonText "permanent_removal") options.deletionMethod),
    ("metadata", jsonObject [("file_type", jsonBool options.metadata.fileType),
      ("executable_permissions", jsonBool options.metadata.executablePermissions),
      ("symlink_targets", jsonBool options.metadata.symlinkTargets),
      ("timestamps", jsonBool options.metadata.timestamps),
      ("ownership", jsonBool options.metadata.specialist.ownership),
      ("access_control_lists", jsonBool options.metadata.specialist.accessControlLists),
      ("extended_attributes", jsonBool options.metadata.specialist.extendedAttributes)]),
    ("partial_transfer_policy", jsonText (match options.partialTransferPolicy with
      | .cleanup => "cleanup"
      | .keepPartialForResume => "keep_partial_for_resume")),
    ("retry_max_attempts", [toString options.retryMaxAttempts]),
    ("retry_initial_delay_millis", [toString options.retryInitialDelayMillis]),
    ("bandwidth_limit_kib_per_second",
      jsonOption (fun limit => [toString limit]) options.bandwidthLimitKibPerSecond)]

def ExportSchedule.json (schedule : ExportSchedule) : List String :=
  jsonObject [("interval_minutes", [toString schedule.intervalMinutes]),
    ("timezone", jsonText schedule.timezone), ("enabled", jsonBool schedule.enabled)]

def ExportProfile.json (profile : ExportProfile) : List String :=
  jsonObject [("name", jsonText profile.name), ("peer_a", profile.peerA.json),
    ("peer_b", profile.peerB.json), ("mode", jsonText (encodeSyncMode profile.mode)),
    ("source", jsonText (encodeSource profile.source)), ("options", profile.options.json),
    ("exclusions", jsonArray (profile.exclusions.map jsonText)),
    ("schedule", jsonOption ExportSchedule.json profile.schedule)]

/-- The text of a document whose texts need no escapes. -/
def ExportConfiguration.text (document : ExportConfiguration) : String :=
  "\n".intercalate (jsonObject [("schema_version", [toString document.schemaVersion]),
    ("settings", jsonObject [("mode", jsonText (encodeApplicationMode document.settings.mode)),
      ("theme", jsonText (encodeThemePreference document.settings.theme)),
      ("hide_to_tray_on_close", jsonBool document.settings.hideToTrayOnWindowClose)]),
    ("profiles", jsonArray (document.profiles.map ExportProfile.json))])

/-- The codec on one document. -/
def documentCodec (document : ExportConfiguration) : JsonCodec where
  toStringPretty d := if d = document then .ok document.text else .error ⟨"other document"⟩
  fromStr text := if text = document.text then .ok document else .error ⟨"other text"⟩
  fromStr_toStringPretty d text := by
    intro h
    split at h
    · rename_i hd
      cases h
      rw [if_pos rfl, hd]
    · cases h

/-- The document of settings as they are at first and one profile. -/
def documentOf (profile : ExportProfile) : ExportConfiguration where
  schemaVersion := currentSchemaVersion
  settings := ⟨.simple, .system, true⟩
  profiles := [profile]

end SyncPlus
