import SafeNetwork.NetworkKnowledge.DagSerde
import SafeNetwork.NetworkKnowledge.SectionTreeTrust
import SafeNetwork.Node.Redirect
import SafeNetwork.Storage.Idempotence
import SafeNetwork.Storage.Accounting
import SafeNetwork.Node.ReplicationComplete
import SafeNetwork.Node.JoinRules
import SafeNetwork.Node.Departed
import SafeNetwork.Node.PendingSplits
import SafeNetwork.Node.Promotion
import SafeNetwork.Node.DkgReplay
import SafeNetwork.Node.DkgSessions
import SafeNetwork.Client.FeeQuorum
import SafeNetwork.Client.SpendDbc
import SafeNetwork.Client.QueryResponses
import SafeNetwork.Node.FlowCtrl
import SafeNetwork.Client.FileRanges
import SafeNetwork.Api.Nrs
import SafeNetwork.Api.Wallet
import SafeNetwork.Api.FilesCreate
import SafeNetwork.NetworkKnowledge.SelfVerify
import SafeNetwork.Comms.RespondOnStream
import SafeNetwork.FaultDetection
import SafeNetwork.Comms.NodeLink
import SafeNetwork.Node.SplitSessions
import SafeNetwork.Node.ClientMsgs
