import IpciBlockchain.Cli.Genesis
import IpciBlockchain.Datalog.Events
import IpciBlockchain.Datalog.Footprint
import IpciBlockchain.Datalog.LegacyMap
import IpciBlockchain.Datalog.OverflowChecks
import IpciBlockchain.Datalog.RecordLimit
import IpciBlockchain.Datalog.Residue
import IpciBlockchain.Datalog.SharedStore
import IpciBlockchain.Datalog.Upgrades
import IpciBlockchain.Inspect.AddressOrder
import IpciBlockchain.Runtime.CurrencyToVote
import IpciBlockchain.Runtime.Transactions
import IpciBlockchain.Runtime.WeightToFee
