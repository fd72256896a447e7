import ClusterClient.Text.Numeral
/-!
Status codes: what a remote side answers with, and what a failed partition is
marked with.
-/
namespace ClusterClient

inductive Status
  | succeeded
  | disconnected
  | failToConnect
  | rpcFailure
  | leaderChanged
  | wrongCluster
  | spaceNotFound
  | partNotFound
  | tagNotFound
  | edgeNotFound
  | indexNotFound
  | configNotFound
  | hostNotFound
  | storeFailure
  | invalidParam
  | unknown
deriving DecidableEq, Repr, Inhabited

namespace Status

inductive Category
  | success
  | transport
  | routing
  | notFound
  | other
deriving DecidableEq, Repr

def all : List Status :=
  [succeeded, disconnected, failToConnect, rpcFailure, leaderChanged, wrongCluster,
    spaceNotFound, partNotFound, tagNotFound, edgeNotFound, indexNotFound, configNotFound,
    hostNotFound, storeFailure, invalidParam, unknown]

def code : Status → Int
  | succeeded => 0
  | disconnected => -100
  | failToConnect => -101
  | rpcFailure => -102
  | leaderChanged => -200
  | wrongCluster => -201
  | spaceNotFound => -300
  | partNotFound => -301
  | tagNotFound => -302
  | edgeNotFound => -303
  | indexNotFound => -304
  | configNotFound => -305
  | hostNotFound => -306
  | storeFailure => -900
  | invalidParam => -901
  | unknown => -999

def ofCode? (n : Int) : Option Status := all.find? fun s => s.code == n

def name : Status → String
  | succeeded => "Succeeded"
  | disconnected => "Disconnected"
  | failToConnect => "FailToConnect"
  | rpcFailure => "RpcFailure"
  | leaderChanged => "LeaderChanged"
  | wrongCluster => "WrongCluster"
  | spaceNotFound => "SpaceNotFound"
  | partNotFound => "PartNotFound"
  | tagNotFound => "TagNotFound"
  | edgeNotFound => "EdgeNotFound"
  | indexNotFound => "IndexNotFound"
  | configNotFound => "ConfigNotFound"
  | hostNotFound => "HostNotFound"
  | storeFailure => "StoreFailure"
  | invalidParam => "InvalidParam"
  | unknown => "Unknown"

/-- Codes come in hundreds, one hundred to a category. -/
def category (s : Status) : Category :=
  let n := s.code
  if n = 0 then .success
  else if -199 ≤ n ∧ n ≤ -100 then .transport
  else if -299 ≤ n ∧ n ≤ -200 then .routing
  else if -399 ≤ n ∧ n ≤ -300 then .notFound
  else .other

def isOk (s : Status) : Bool := s == succeeded

def text : Status → String
  | succeeded => "成功"
  | disconnected => "连接断开"
  | failToConnect => "无法连接"
  | rpcFailure => "RPC调用失败"
  | leaderChanged => "leader已变更"
  | wrongCluster => "集群ID不匹配"
  | spaceNotFound => "空间不存在"
  | partNotFound => "分区不存在"
  | tagNotFound => "标签不存在"
  | edgeNotFound => "边类型不存在"
  | indexNotFound => "索引不存在"
  | configNotFound => "配置项不存在"
  | hostNotFound => "主机不存在"
  | storeFailure => "存储失败"
  | invalidParam => "参数非法"
  | unknown => "未知错误"

def described (s : Status) : String := s.text ++ "(" ++ Text.showInt s.code ++ ")"

end Status

end ClusterClient
