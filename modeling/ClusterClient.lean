import ClusterClient.Json.Reader
import ClusterClient.Json.Writer
import ClusterClient.Proofs.Accounting
import ClusterClient.Proofs.Addresses
import ClusterClient.Proofs.Agreement
import ClusterClient.Proofs.Client.Lines
import ClusterClient.Proofs.Confluence
import ClusterClient.Proofs.Coverage
import ClusterClient.Proofs.Finality
import ClusterClient.Proofs.Freshness.Current
import ClusterClient.Proofs.Wire.RoundTrips
import ClusterClient.Proofs.Locality
import ClusterClient.Proofs.Membership
import ClusterClient.Proofs.Numbering
import ClusterClient.Proofs.Published
import ClusterClient.Proofs.Reports
import ClusterClient.Proofs.Rerouting
import ClusterClient.Proofs.Retries
import ClusterClient.Proofs.Saving
import ClusterClient.Proofs.Seeding
import ClusterClient.Proofs.SettingsFile
import ClusterClient.Proofs.SpaceOptions
import ClusterClient.Proofs.Splitting
import ClusterClient.Proofs.Starts
import ClusterClient.Proofs.Targets
import ClusterClient.Proofs.Versions
import ClusterClient.Proofs.Walk
import ClusterClient.Settings.File
import ClusterClient.Simulation.Play
import ClusterClient.Table.Lemmas
import ClusterClient.Wire.Records
