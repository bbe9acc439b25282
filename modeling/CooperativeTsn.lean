import CooperativeTsn.Stream.Shift
import CooperativeTsn.Stream.Coverage
import CooperativeTsn.Gate.Execution
import CooperativeTsn.App.Agreement
import CooperativeTsn.Flow.RoundTrip
import CooperativeTsn.Flow.Request
import CooperativeTsn.Flow.Exchange
import CooperativeTsn.Bridge.Completeness
import CooperativeTsn.Bridge.Lifetime
import CooperativeTsn.Bridge.Deletion
import CooperativeTsn.App.Accounting
import CooperativeTsn.App.Phase
import CooperativeTsn.Net.Extraction
import CooperativeTsn.Flow.Delivery
import CooperativeTsn.App.StartTime
import CooperativeTsn.Flow.Acceptance
import CooperativeTsn.Flow.Attributes
import CooperativeTsn.Flow.Pointers
import CooperativeTsn.Bridge.Failure
import CooperativeTsn.Flow.Hops
import CooperativeTsn.Driver.InetDriver
import CooperativeTsn.Stream.LinkRate
import CooperativeTsn.Net.HostAutoConfigurator
import CooperativeTsn.Flow.RequestFile
import CooperativeTsn.Net.NetworkConfigurator
import CooperativeTsn.Bridge.Relay
import CooperativeTsn.Eager.Packets
import CooperativeTsn.Eager.Gates
import CooperativeTsn.Flow.PatternLanguage
import CooperativeTsn.Flow.PatternSyntax
import CooperativeTsn.Flow.Selection
