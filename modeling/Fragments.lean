import Fragments.Main
import Fragments.Process
import Fragments.Proofs.CommandLine.Output
import Fragments.Proofs.Data.Display
import Fragments.Proofs.Data.Entries
import Fragments.Proofs.Data.Outcome
import Fragments.Proofs.Data.Parts
import Fragments.Proofs.Data.Sharing
import Fragments.Proofs.Directories
import Fragments.Proofs.Disk
import Fragments.Proofs.Enrichment.Complete
import Fragments.Proofs.Enrichment.Frame
import Fragments.Proofs.Enrichment.Identity
import Fragments.Proofs.Enrichment.Refusals
import Fragments.Proofs.Enrichment.Schedules
import Fragments.Proofs.Enrichment.Steps
import Fragments.Proofs.FileName
import Fragments.Proofs.FileName.Agreement
import Fragments.Proofs.FileName.Grammar
import Fragments.Proofs.FileName.Parsing
import Fragments.Proofs.FileName.Search
import Fragments.Proofs.FragmentFile
import Fragments.Proofs.Json.Atoms
import Fragments.Proofs.Json.Faults
import Fragments.Proofs.Json.Layout
import Fragments.Proofs.Json.Newlines
import Fragments.Proofs.Json.Numbers
import Fragments.Proofs.Json.RoundTrip
import Fragments.Proofs.Json.Strings
import Fragments.Proofs.Json.Values
import Fragments.Proofs.Mapping.Batches
import Fragments.Proofs.Mapping.Convention
import Fragments.Proofs.Mapping.Elements
import Fragments.Proofs.Mapping.Files
import Fragments.Proofs.Mapping.Forms
import Fragments.Proofs.Mapping.History
import Fragments.Proofs.Mapping.Listing
import Fragments.Proofs.Mapping.Readers
import Fragments.Proofs.Mapping.Snapshot
import Fragments.Proofs.Markup
import Fragments.Proofs.Number.Digits
import Fragments.Proofs.Number.Rounding
import Fragments.Proofs.Number.Shortest
import Fragments.Proofs.Process.Clients
import Fragments.Proofs.Process.Isolation
import Fragments.Proofs.Process.LifeCycle
import Fragments.Proofs.Process.Session
import Fragments.Proofs.Resolver
import Fragments.Proofs.Resource.Complaints
import Fragments.Proofs.Resource.Conversion
import Fragments.Proofs.Resource.Depth
import Fragments.Proofs.Resource.Dump
import Fragments.Proofs.Resource.Dumpable
import Fragments.Proofs.Resource.FixedPoint
import Fragments.Proofs.Resource.Keys
import Fragments.Proofs.Resource.Reading
import Fragments.Proofs.Resource.Shape
import Fragments.Proofs.Resource.Shown
import Fragments.Proofs.ResourceList.FixedPoint
import Fragments.Proofs.ResourceList.Frame
import Fragments.Proofs.ResourceList.Order
import Fragments.Proofs.ResourceList.Rendering
import Fragments.Proofs.ResourceList.Reported
import Fragments.Proofs.ResourceList.RoundTrip
import Fragments.Proofs.ResourceList.YamlRoundTrip
import Fragments.Proofs.Text.Basic
import Fragments.Proofs.Text.Case
import Fragments.Proofs.Text.LowerCase
import Fragments.Proofs.Text.Utf8
import Fragments.Proofs.Versioning
import Fragments.Proofs.Yaml.Characters
import Fragments.Proofs.Yaml.Documents
import Fragments.Proofs.Yaml.DoubleText
import Fragments.Proofs.Yaml.Endings
import Fragments.Proofs.Yaml.Faults
import Fragments.Proofs.Yaml.Filling
import Fragments.Proofs.Yaml.Graphs
import Fragments.Proofs.Yaml.Keys
import Fragments.Proofs.Yaml.Layout
import Fragments.Proofs.Yaml.Legible
import Fragments.Proofs.Yaml.Nodes
import Fragments.Proofs.Yaml.Numbers
import Fragments.Proofs.Yaml.Pairs
import Fragments.Proofs.Yaml.Pens
import Fragments.Proofs.Yaml.PlainText
import Fragments.Proofs.Yaml.QuotedText
import Fragments.Proofs.Yaml.Runs
import Fragments.Proofs.Yaml.ScanFaults
import Fragments.Proofs.Yaml.SingleText
import Fragments.Proofs.Yaml.Steps
import Fragments.Proofs.Yaml.Texts
import Fragments.Proofs.Yaml.Trees
import Fragments.Proofs.Yaml.Unrolling
import Fragments.Proofs.Yaml.Values
import Fragments.Proofs.Yaml.Walk
