import SevenMirror.AdminService.DeviceAccess
import SevenMirror.Admission.Evidence
import SevenMirror.Admission.Limits
import SevenMirror.Admission.Paging
import SevenMirror.Admission.Preferences
import SevenMirror.Admission.RotateAuthority
import SevenMirror.Admission.Upgrade
import SevenMirror.Console.SecondFactor
import SevenMirror.Console.Setup
import SevenMirror.HttpApi.Enrolment
import SevenMirror.MembershipCodec.Canonical
import SevenMirror.MembershipCodec.RosterRules
import SevenMirror.MembershipCodec.SignatureMeaning
import SevenMirror.PayloadCodec.Sizes
import SevenMirror.Relay.Capacity
import SevenMirror.Relay.ClientMessages
import SevenMirror.Relay.Expiry
import SevenMirror.Relay.Handover
import SevenMirror.Relay.Handshake
import SevenMirror.Relay.Monitor
import SevenMirror.Relay.Retirement
import SevenMirror.Relay.Wakeups
import SevenMirror.WorkspaceBackup.AllOrNothing
