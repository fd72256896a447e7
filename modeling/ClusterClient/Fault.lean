import ClusterClient.Host
import ClusterClient.Status
import ClusterClient.Text.Span
/-!
What can go wrong in a call on the client, by cause. Every wording is in
`Fault.message`.
-/
namespace ClusterClient

abbrev SpaceId := Int32
abbrev PartId := Int32
abbrev TagId := Int32
abbrev EdgeType := Int32
abbrev IndexId := Int32
abbrev SchemaVersion := Int64
abbrev ClusterId := Int64
abbrev Term := Int64

inductive Resource
  | space
  | part
  | tag
  | edge
  | index
  | config
deriving DecidableEq, Repr

namespace Resource

def text : Resource → String
  | space => "空间"
  | part => "分区"
  | tag => "标签"
  | edge => "边类型"
  | index => "索引"
  | config => "配置项"

def status : Resource → Status
  | space => .spaceNotFound
  | part => .partNotFound
  | tag => .tagNotFound
  | edge => .edgeNotFound
  | index => .indexNotFound
  | config => .configNotFound

end Resource

/- In each of the following, `reported` stands for a cause that only the other
side of a call knows, with the words it used. -/

/-- What was looked for in vain. -/
inductive Missing
  | space (id : SpaceId)
  | spaceNamed (name : String)
  | part (space : SpaceId) (id : PartId)
  | anyPart (space : SpaceId)
  | tag (space : SpaceId) (id : TagId)
  | tagNamed (space : SpaceId) (name : String)
  | tagVersion (space : SpaceId) (id : TagId) (version : SchemaVersion)
  | edge (space : SpaceId) (id : EdgeType)
  | edgeNamed (space : SpaceId) (name : String)
  | edgeVersion (space : SpaceId) (id : EdgeType) (version : SchemaVersion)
  | index (space : SpaceId) (id : IndexId)
  | config (name : String)
  | reported (resource : Resource) (key : String)
deriving DecidableEq, Repr

namespace Missing

def resource : Missing → Resource
  | space _ | spaceNamed _ => .space
  | part .. | anyPart _ => .part
  | tag .. | tagNamed .. | tagVersion .. => .tag
  | edge .. | edgeNamed .. | edgeVersion .. => .edge
  | index .. => .index
  | config _ => .config
  | reported resource _ => resource

def within (space : SpaceId) (rest : String) : String :=
  Text.showInt space.toInt ++ "/" ++ rest

def versioned (id : Int32) (version : SchemaVersion) : String :=
  Text.showInt id.toInt ++ "@" ++ Text.showInt version.toInt

def key : Missing → String
  | space id => Text.showInt id.toInt
  | spaceNamed name => name
  | part s id => within s (Text.showInt id.toInt)
  | anyPart s => within s "any"
  | tag s id => within s (Text.showInt id.toInt)
  | tagNamed s name => within s name
  | tagVersion s id v => within s (versioned id v)
  | edge s id => within s (Text.showInt id.toInt)
  | edgeNamed s name => within s name
  | edgeVersion s id v => within s (versioned id v)
  | index s id => within s (Text.showInt id.toInt)
  | config name => name
  | reported _ key => key

end Missing

inductive CallFailure
  | timedOut (host : Host) (limit : Nat)
  | reported (words : String)
deriving DecidableEq, Repr

def CallFailure.text : CallFailure → String
  | timedOut host limit => "调用 " ++ host.text ++ " 超时 (" ++ Text.span limit ++ ")"
  | reported words => words

inductive NotReady
  | probing
  | stopped
  | unavailable (tries : Nat) (last : String)
  | reported (words : String)
deriving DecidableEq, Repr

def NotReady.text : NotReady → String
  | probing => "正在进行就绪探测"
  | stopped => "刷新任务已停止"
  | unavailable tries last =>
    Text.showNat tries ++ " 次探测后元数据服务仍不可用: " ++ last
  | reported words => words

inductive FatalCause
  | clusterIdUnsaved (reason : String)
  | reported (words : String)
deriving DecidableEq, Repr

def FatalCause.text : FatalCause → String
  | clusterIdUnsaved reason => "持久化集群 ID 失败: " ++ reason
  | reported words => words

inductive Misconfiguration
  | noMetaAddress
  | zeroHeartbeat
  | malformed
  | reported (words : String)
deriving DecidableEq, Repr

def Misconfiguration.text : Misconfiguration → String
  | noMetaAddress => "元数据服务地址不能为空"
  | zeroHeartbeat => "心跳间隔必须大于0"
  | malformed => ""
  | reported words => words

inductive DiskFault
  | notFound
  | alreadyExists
  | notDirectory
  | isDirectory
  | busy
  | nameTooLong
  | nulInName
  | notText
  | clusterIdUnreadable (path line : String)
  | clusterIdNotPositive (path : String) (id : ClusterId)
  | reported (words : String)
deriving DecidableEq, Repr

def DiskFault.text : DiskFault → String
  | notFound => "No such file or directory (os error 2)"
  | alreadyExists => "File exists (os error 17)"
  | notDirectory => "Not a directory (os error 20)"
  | isDirectory => "Is a directory (os error 21)"
  | busy => "Device or resource busy (os error 16)"
  | nameTooLong => "File name too long (os error 36)"
  | nulInName => "file name contained an unexpected NUL byte"
  | notText => "stream did not contain valid UTF-8"
  | clusterIdUnreadable path line =>
    "集群 ID 文件 " ++ path ++ " 内容无效: " ++ Text.quoted line
  | clusterIdNotPositive path id =>
    "集群 ID 文件 " ++ path ++ " 中的 ID 必须为正数: " ++ Text.showInt id.toInt
  | reported words => words

inductive InvalidInput
  | missingPort (address : String)
  | missingName (address : String)
  | badPort (address : String) (error : Text.NumeralError)
  | partCount (count : Int32)
  | clusterId (id : ClusterId)
  | reported (words : String)
deriving DecidableEq, Repr

def InvalidInput.text : InvalidInput → String
  | missingPort address => "地址缺少端口: " ++ address
  | missingName address => "地址缺少主机名: " ++ address
  | badPort address error => "无效端口 " ++ address ++ ": " ++ error.message
  | partCount count => "分区数必须大于0: " ++ Text.showInt count.toInt
  | clusterId id => "集群 ID 必须为正数: " ++ Text.showInt id.toInt
  | reported words => words

inductive Fault
  | missing (what : Missing)
  | leaderChanged (leader : Option Host)
  | rpcFailed (cause : CallFailure)
  | remote (status : Status)
  | notReady (cause : NotReady)
  | fatal (cause : FatalCause)
  | config (cause : Misconfiguration)
  | disk (cause : DiskFault)
  | invalidInput (cause : InvalidInput)
deriving DecidableEq, Repr

namespace Fault

def optional : Option Host → String
  | none => "None"
  | some h => "Some(" ++ h.described ++ ")"

def message : Fault → String
  | missing what => what.resource.text ++ "未找到: " ++ what.key
  | leaderChanged leader => "leader已变更, 新leader: " ++ optional leader
  | rpcFailed cause => "RPC调用失败: " ++ cause.text
  | remote status => "远端返回错误: " ++ status.described
  | notReady cause => "元数据未就绪: " ++ cause.text
  | fatal cause => "致命错误: " ++ cause.text
  | config cause => "配置错误: " ++ cause.text
  | disk cause => "IO错误: " ++ cause.text
  | invalidInput cause => "无效输入: " ++ cause.text

def isRetryable : Fault → Bool
  | rpcFailed _ | leaderChanged _ => true
  | _ => false

def isFatal : Fault → Bool
  | fatal _ => true
  | _ => false

/-- The status that a partition failing for this reason is marked with. -/
def status : Fault → Status
  | missing what => what.resource.status
  | leaderChanged _ => .leaderChanged
  | rpcFailed _ => .rpcFailure
  | remote status => status
  | invalidInput _ | config _ => .invalidParam
  | notReady _ | fatal _ | disk _ => .unknown

end Fault

end ClusterClient
