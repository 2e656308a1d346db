import RfCloner.Lib.FixedCodec
import RfCloner.Lib.RecordStore
import RfCloner.Lib.SlotTable
import RfCloner.Lib.SlotMap
import RfCloner.Store.Types
import RfCloner.Store.Layout
import RfCloner.Store.Operations
import RfCloner.Store.Load
import RfCloner.Store.ReadOnly
import RfCloner.Store.Codec
import RfCloner.Store.Writes
import RfCloner.Store.Slots
import RfCloner.Store.Changes
import RfCloner.Store.Lifetime
import RfCloner.Store.Reboot
import RfCloner.Store.Crash
import RfCloner.Store.Durable
import RfCloner.Store.Staging
import RfCloner.Store.Reference
import RfCloner.Store.Refine
import RfCloner.Store.Lineage
import RfCloner.Store.Revision
import RfCloner.Store.Assigned
import RfCloner.Store.Provenance
import RfCloner.Lib.Decimal
import RfCloner.Lib.Dict
import RfCloner.Hass.Models
import RfCloner.Hass.Targets
import RfCloner.Hass.Snapshot
import RfCloner.Device.Cloner
import RfCloner.System.Link
import RfCloner.System.Replica
import RfCloner.Hass.Reconcile
import RfCloner.System.PayloadFault
import RfCloner.Hass.Mirror
import RfCloner.Hass.Freeze
import RfCloner.Hass.Flows
import RfCloner.Hass.Overwrite
import RfCloner.System.StaleListing
import RfCloner.System.Abandoned
import RfCloner.System.Completeness
import RfCloner.Lib.Greedy
import RfCloner.Lib.Runs
import RfCloner.System.Restore
import RfCloner.System.PartialRestore
import RfCloner.Hass.Stored
import RfCloner.System.Fidelity
import RfCloner.Store.Authored
import RfCloner.Store.Rollback
import RfCloner.Store.IndexOnly
import RfCloner.Store.KeySpace
import RfCloner.Store.Collision
import RfCloner.Device.Validator
import RfCloner.Device.Learn
import RfCloner.Device.Lifecycle
import RfCloner.Device.History
import RfCloner.Device.Agreement
import RfCloner.Device.Gap
import RfCloner.Hass.Refreshes
import RfCloner.Hass.Reservations
import RfCloner.System.Outcomes
import RfCloner.Device.Actions
import RfCloner.Store.Budget
import RfCloner.Device.Isolation
import RfCloner.Device.Stale
import RfCloner.Device.SingleFrame
import RfCloner.Lib.Crc
import RfCloner.Store.Burst
import RfCloner.System.Preflight
import RfCloner.System.Verdict
import RfCloner.System.Reconfigure
import RfCloner.System.Repeat
import RfCloner.Device.Reentry
import RfCloner.Hass.Pruning
import RfCloner.Hass.Buttons
import RfCloner.Hass.Migration
import RfCloner.Hass.Replicas
import RfCloner.Lib.Interleave
import RfCloner.Device.Split
import RfCloner.Lib.Average
import RfCloner.Device.Arrival
import RfCloner.Store.Capacity
import RfCloner.System.Options
import RfCloner.Device.Replay
import RfCloner.Device.Origins
import RfCloner.Device.Deadline
import RfCloner.Lib.AsyncLock
import RfCloner.System.Coordinator
import RfCloner.System.Sensors
import RfCloner.System.Forms
import RfCloner.System.Payloads
import RfCloner.Hass.Devices
import RfCloner.Hass.ButtonTasks
import RfCloner.Lib.HandleCache
import RfCloner.Store.Preferences
