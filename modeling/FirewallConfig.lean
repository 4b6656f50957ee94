import FirewallConfig.Reader
import FirewallConfig.Json.Encode
import FirewallConfig.Report.Listing
import FirewallConfig.Service.WellKnown
import FirewallConfig.Writer
import FirewallConfig.Xml.Writer
import FirewallConfig.Xml.Token
import FirewallConfig.Xml.Reader
import FirewallConfig.Toml.Reader
import FirewallConfig.Registry.Matrix
import FirewallConfig.Report.Catalogue
import FirewallConfig.Report.Outcome
import FirewallConfig.CommandLine.Commands
import FirewallConfig.Main
import FirewallConfig.Proofs.FortiOs.Rules
import FirewallConfig.Proofs.PanOs.Rules
import FirewallConfig.Proofs.Address.Endpoint
import FirewallConfig.Proofs.Cisco.Access
import FirewallConfig.Proofs.Cisco.CoreList
import FirewallConfig.Proofs.Cisco.Expansion
import FirewallConfig.Proofs.Cisco.Scope
import FirewallConfig.Proofs.Cisco.Restriction
import FirewallConfig.Proofs.Cisco.Survival
import FirewallConfig.Proofs.FortiOs.Forest
import FirewallConfig.Proofs.Xml.Document
import FirewallConfig.Proofs.PanOs.Sections
import FirewallConfig.Proofs.PanOs.WellFormed
import FirewallConfig.Proofs.Config.Groups
import FirewallConfig.Proofs.Config.Implied
import FirewallConfig.Proofs.Text.Lines
import FirewallConfig.Proofs.FortiOs.Layout
import FirewallConfig.Proofs.FortiOs.Concatenation
import FirewallConfig.Proofs.Cisco.RuleNames
import FirewallConfig.Proofs.FortiOs.ServiceList
import FirewallConfig.Proofs.Config.Services
import FirewallConfig.Proofs.FortiOs.Phases
import FirewallConfig.Proofs.PanOs.Selectors
import FirewallConfig.Proofs.PanOs.ServiceNames
import FirewallConfig.Proofs.Cisco.Keys
import FirewallConfig.Proofs.Registry.Views
import FirewallConfig.Proofs.Registry.References
import FirewallConfig.Proofs.Config.SourceZones
import FirewallConfig.Proofs.Cisco.Blocks
import FirewallConfig.Proofs.Cisco.LateBindings
import FirewallConfig.Proofs.Cisco.Interleaving
import FirewallConfig.Proofs.Cisco.Flavors
import FirewallConfig.Proofs.Cisco.PortTests
import FirewallConfig.Proofs.CommandLine.Convert
import FirewallConfig.Proofs.Config.Routes
import FirewallConfig.Proofs.Config.Interfaces
import FirewallConfig.Proofs.Config.Addresses
import FirewallConfig.Proofs.PanOs.Units
import FirewallConfig.Proofs.PanOs.Inline
import FirewallConfig.Proofs.Cisco.Nameifs
import FirewallConfig.Proofs.FortiOs.Quoting
import FirewallConfig.Proofs.Service.NormalForm
import FirewallConfig.Proofs.PanOs.Zoning
import FirewallConfig.Proofs.Cisco.CryptoClosure
import FirewallConfig.Proofs.Text.Alignment
import FirewallConfig.Proofs.PanOs.Spelling
import FirewallConfig.Proofs.Reader
