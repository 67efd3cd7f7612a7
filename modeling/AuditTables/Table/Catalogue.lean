import AuditTables.Table.Definition

/-!
# `AuditTables.Table.Catalogue`: the tables there are

Seven tables show one kind of security event each, and the eighth shows every
event without looking into its data. They are listed in the order in which they
are registered, scanned and exported.

The number 4688 is shared by processes that start and end and by files that are
accessed, and 4663 by files and other objects, so the tables that look at them
also name the payloads they accept.
-/

set_option autoImplicit false

namespace AuditTables.Table

namespace Catalogue

/-- A field shown as text. -/
def textField (column key : String) : Field := ⟨column, key, .string⟩

/-- A field shown as a whole number. -/
def integerField (column key : String) : Field := ⟨column, key, .integer⟩

/-- The account that acted. -/
def subjectFields : List Field :=
  [textField "subject_user_sid" "SubjectUserSid",
   textField "subject_user_name" "SubjectUserName",
   textField "subject_domain_name" "SubjectDomainName",
   textField "subject_logon_id" "SubjectLogonId"]

/-- An object and how it was accessed. -/
def objectFields : List Field :=
  [textField "object_server" "ObjectServer",
   textField "object_type" "ObjectType",
   textField "object_name" "ObjectName",
   textField "handle_id" "HandleId",
   textField "access_list" "AccessList",
   textField "access_mask" "AccessMask",
   textField "process_id" "ProcessId",
   textField "process_name" "ProcessName",
   textField "resource_attributes" "ResourceAttributes",
   textField "restricted_sid_count" "RestrictedSidCount"]

/-- Processes that were started. -/
def processCreation : Definition where
  name := "process_creation"
  eventIds := some [4688]
  kinds := some [.processCreation]
  readsData := true
  fields := subjectFields ++
    [textField "new_process_id" "NewProcessId",
     textField "new_process_name" "NewProcessName",
     integerField "token_elevation_type" "TokenElevationType",
     textField "creator_process_id" "ProcessId",
     textField "command_line" "CommandLine",
     textField "target_user_sid" "TargetUserSid",
     textField "target_user_name" "TargetUserName",
     textField "target_domain_name" "TargetDomainName",
     textField "target_logon_id" "TargetLogonId",
     textField "parent_process_name" "ParentProcessName",
     textField "mandatory_label" "MandatoryLabel"]
  derived := []
  enrichment := some .elevation

/-- Processes that ended. -/
def processTermination : Definition where
  name := "process_termination"
  eventIds := some [4689, 4688]
  kinds := some [.processTermination]
  readsData := true
  fields := subjectFields ++
    [textField "status" "Status",
     textField "process_id" "ProcessId",
     textField "process_name" "ProcessName"]
  derived := []
  enrichment := none

/-- Accounts that logged on. -/
def accountLogon : Definition where
  name := "account_logon"
  eventIds := some [4624]
  kinds := none
  readsData := true
  fields := subjectFields ++
    [textField "target_user_sid" "TargetUserSid",
     textField "target_user_name" "TargetUserName",
     textField "target_domain_name" "TargetDomainName",
     textField "target_logon_id" "TargetLogonId",
     integerField "logon_type" "LogonType",
     textField "logon_process_name" "LogonProcessName",
     textField "authentication_package_name" "AuthenticationPackageName",
     textField "workstation_name" "WorkstationName",
     textField "logon_guid" "LogonGuid",
     textField "transmitted_services" "TransmittedServices",
     textField "lm_package_name" "LmPackageName",
     integerField "key_length" "KeyLength",
     textField "process_id" "ProcessId",
     textField "process_name" "ProcessName",
     textField "ip_address" "IpAddress",
     integerField "ip_port" "IpPort",
     textField "impersonation_level" "ImpersonationLevel",
     textField "restricted_admin_mode" "RestrictedAdminMode",
     textField "target_outbound_user_name" "TargetOutboundUserName",
     textField "target_outbound_domain_name" "TargetOutboundDomainName",
     textField "virtual_account" "VirtualAccount",
     textField "target_linked_logon_id" "TargetLinkedLogonId",
     textField "elevated_token" "ElevatedToken"]
  derived := []
  enrichment := none

/-- Connections that were allowed. -/
def networkConnection : Definition where
  name := "network_conn"
  eventIds := some [5156]
  kinds := none
  readsData := true
  fields :=
    [integerField "process_id" "ProcessID",
     textField "application" "Application",
     textField "direction" "Direction",
     textField "source_address" "SourceAddress",
     integerField "source_port" "SourcePort",
     textField "dest_address" "DestAddress",
     integerField "dest_port" "DestPort",
     integerField "protocol" "Protocol",
     integerField "filter_rtid" "FilterRTID",
     textField "layer_name" "LayerName",
     integerField "layer_rtid" "LayerRTID",
     textField "remote_user_id" "RemoteUserID",
     textField "remote_machine_id" "RemoteMachineID"]
  derived := [⟨"community_id", .string⟩]
  enrichment := some .connection

/-- Files that were accessed. -/
def fileMonitoring : Definition where
  name := "file_monitoring"
  eventIds := some [4656, 4663, 4688]
  kinds := some [.fileAccess]
  readsData := true
  fields := subjectFields ++ objectFields
  derived := []
  enrichment := none

/-- Objects of any type that were accessed. -/
def objectAccess : Definition where
  name := "obj_access_attempt"
  eventIds := some [4663]
  kinds := some [.fileAccess, .objectAccess]
  readsData := true
  fields := subjectFields ++ objectFields
  derived := []
  enrichment := none

/-- Registry values that were changed. -/
def registryValue : Definition where
  name := "regval_modified"
  eventIds := some [4657]
  kinds := none
  readsData := true
  fields := subjectFields ++
    [textField "object_name" "ObjectName",
     textField "object_value_name" "ObjectValueName",
     textField "handle_id" "HandleId",
     textField "operation_type" "OperationType",
     textField "old_value_type" "OldValueType",
     textField "old_value" "OldValue",
     textField "new_value_type" "NewValueType",
     textField "new_value" "NewValue",
     textField "process_id" "ProcessId",
     textField "process_name" "ProcessName"]
  derived := []
  enrichment := none

/-- Every event. -/
def allEvents : Definition where
  name := "winevtlog"
  eventIds := none
  kinds := none
  readsData := false
  fields := []
  derived := []
  enrichment := none

end Catalogue

open Catalogue in
/-- All tables, in order. -/
def catalogue : List Definition :=
  [processCreation, processTermination, accountLogon, networkConnection, fileMonitoring,
   objectAccess, registryValue, allEvents]

end AuditTables.Table
