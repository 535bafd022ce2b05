import HttpDns.Client.Session
import HttpDns.FileTree
import HttpDns.Main
import HttpDns.Proofs.Merge
import HttpDns.Proofs.Steps
import HttpDns.QueryType.Json
import HttpDns.Proofs.Rounds
import HttpDns.Proofs.Life
import HttpDns.Proofs.Settling
import HttpDns.Proofs.Refusal
import HttpDns.Proofs.Share
import HttpDns.Proofs.Upkeep
import HttpDns.Proofs.Records
import HttpDns.Proofs.Lone
import HttpDns.Proofs.Lookup
import HttpDns.Proofs.Transparency
import HttpDns.Proofs.Persistence
import HttpDns.Proofs.Freshness
import HttpDns.Proofs.FormEncoding
import HttpDns.Proofs.Reading
import HttpDns.Proofs.Voyages
import HttpDns.Proofs.Gate
import HttpDns.Proofs.Batches
import HttpDns.Proofs.Attempts
import HttpDns.Proofs.Retries
import HttpDns.Proofs.Supply
import HttpDns.Proofs.Avoidance
import HttpDns.Proofs.Verifying
import HttpDns.Proofs.Origins
import HttpDns.Proofs.Ledger
import HttpDns.Proofs.Isolation
import HttpDns.Proofs.Confinement
import HttpDns.Proofs.Narrowing
import HttpDns.Proofs.Reuse
import HttpDns.Proofs.Rendering
import HttpDns.Proofs.Tidiness
import HttpDns.Proofs.BatchLookups
import HttpDns.Proofs.BatchAnswers
import HttpDns.Proofs.Failover
import HttpDns.Proofs.BootServers
import HttpDns.Proofs.Balance
import HttpDns.Proofs.Enlisting
import HttpDns.Proofs.Failures
import HttpDns.Proofs.Faults
import HttpDns.Proofs.Duplicates
import HttpDns.Proofs.Rejection
import HttpDns.Proofs.Accord
import HttpDns.Proofs.Fallback
import HttpDns.Proofs.BootOrder
import HttpDns.Proofs.Regrouping
import HttpDns.Proofs.Updates
import HttpDns.Proofs.Smoothing
import HttpDns.Proofs.Selection
import HttpDns.Proofs.Sampling
import HttpDns.Proofs.Turns
import HttpDns.Proofs.Tokens
import HttpDns.Proofs.Accepted
import HttpDns.Proofs.Credits
import HttpDns.Proofs.Hits
import HttpDns.Proofs.Messages
import HttpDns.Proofs.Lifetimes
import HttpDns.Proofs.Placement
import HttpDns.Proofs.Defaults
import HttpDns.Proofs.Detection
import HttpDns.Proofs.Sorting
import HttpDns.Proofs.Unions
