import ValkeyGlide.Protocol.Command

/-!
# Routing tables

How each command is routed in a cluster, which commands only read, and how the
replies of several nodes are put together (`cluster_routing.rs`).  The tables
are those of the source, in its order.
-/

namespace ValkeyGlide.Cluster

open Protocol

inductive MultiSlotArgPattern where
  | keysOnly
  | keyValuePairs
  | keysAndLastArg
  | keyWithTwoArgTriples
  deriving DecidableEq, Repr

inductive RouteBy where
  | allNodes
  | allPrimaries
  | firstKey
  | multiShard (argsPattern : MultiSlotArgPattern)
  | random
  | secondArg
  | secondArgAfterKeyCount
  | secondArgSlot
  | streamsIndex
  | thirdArg
  | thirdArgAfterKeyCount
  | undefined
  deriving DecidableEq, Repr

def isOneOf (cmd : Bytes) (names : List String) : Bool :=
  names.any fun name => bytes name == cmd

def allNodesCommands : List String :=
  ["ACL DELUSER", "ACL SAVE", "ACL SETUSER", "AUTH", "CLIENT KILL", "CLIENT SETINFO",
    "CLIENT SETNAME", "CONFIG RESETSTAT", "CONFIG REWRITE", "CONFIG SET", "FUNCTION KILL",
    "FUNCTION STATS", "PUBSUB CHANNELS", "PUBSUB NUMPAT", "PUBSUB NUMSUB",
    "PUBSUB SHARDCHANNELS", "PUBSUB SHARDNUMSUB", "RESET", "SCRIPT FLUSH", "SCRIPT KILL",
    "SCRIPT LOAD", "SELECT", "SLOWLOG GET", "SLOWLOG LEN", "SLOWLOG RESET"]

def allPrimariesCommands : List String :=
  ["BGREWRITEAOF", "BGSAVE", "CLIENT PAUSE", "CLIENT UNPAUSE", "DBSIZE", "DEBUG", "FLUSHALL",
    "FLUSHDB", "FT._ALIASLIST", "FT._LIST", "FUNCTION DELETE", "FUNCTION FLUSH",
    "FUNCTION LOAD", "FUNCTION RESTORE", "INFO", "KEYS", "LATENCY DOCTOR", "LATENCY GRAPH",
    "LATENCY HISTOGRAM", "LATENCY HISTORY", "LATENCY LATEST", "LATENCY RESET", "MEMORY DOCTOR",
    "MEMORY MALLOC-STATS", "MEMORY PURGE", "MEMORY STATS", "PING", "RANDOMKEY", "SAVE",
    "SCRIPT EXISTS", "UNWATCH", "WAIT", "WAITAOF"]

def secondArgCommands : List String :=
  ["BITOP", "MEMORY USAGE", "PFDEBUG", "XGROUP CREATE", "XGROUP CREATECONSUMER",
    "XGROUP DELCONSUMER", "XGROUP DESTROY", "XGROUP SETID", "XINFO CONSUMERS", "XINFO GROUPS",
    "XINFO STREAM", "OBJECT ENCODING", "OBJECT FREQ", "OBJECT IDLETIME", "OBJECT REFCOUNT",
    "JSON.DEBUG"]

def randomCommands : List String :=
  ["ACL DRYRUN", "ACL GENPASS", "ACL GETUSER", "ACL HELP", "ACL LIST", "ACL LOG", "ACL USERS",
    "ACL WHOAMI", "CLIENT GETNAME", "CLIENT GETREDIR", "CLIENT ID", "CLIENT INFO",
    "CLIENT LIST", "CLIENT REPLY", "CLIENT TRACKINGINFO", "CLIENT UNBLOCK",
    "CLUSTER COUNT-FAILURE-REPORTS", "CLUSTER INFO", "CLUSTER KEYSLOT", "CLUSTER MEET",
    "CLUSTER MYSHARDID", "CLUSTER NODES", "CLUSTER REPLICAS", "CLUSTER RESET",
    "CLUSTER SET-CONFIG-EPOCH", "CLUSTER SHARDS", "CLUSTER SLOTS", "COMMAND COUNT",
    "COMMAND GETKEYS", "COMMAND LIST", "COMMAND", "CONFIG GET", "ECHO", "FUNCTION LIST",
    "LASTSAVE", "LOLWUT", "MODULE LIST", "MODULE LOAD", "MODULE LOADEX", "MODULE UNLOAD",
    "READONLY", "READWRITE", "SCRIPT SHOW", "TFCALL", "TFCALLASYNC", "TFUNCTION DELETE",
    "TFUNCTION LIST", "TFUNCTION LOAD", "TIME"]

def baseRouting (cmd : Bytes) : RouteBy :=
  if isOneOf cmd allNodesCommands then .allNodes
  else if isOneOf cmd allPrimariesCommands then .allPrimaries
  else if isOneOf cmd
    ["MGET", "DEL", "EXISTS", "UNLINK", "TOUCH", "WATCH", "SUBSCRIBE", "PSUBSCRIBE",
      "SSUBSCRIBE"] then
    .multiShard .keysOnly
  else if isOneOf cmd ["MSET"] then .multiShard .keyValuePairs
  else if isOneOf cmd ["JSON.MGET"] then .multiShard .keysAndLastArg
  else if isOneOf cmd ["JSON.MSET"] then .multiShard .keyWithTwoArgTriples
  else if isOneOf cmd ["SCAN", "SHUTDOWN", "SLAVEOF", "REPLICAOF"] then .undefined
  else if isOneOf cmd
    ["BLMPOP", "BZMPOP", "EVAL", "EVALSHA", "EVALSHA_RO", "EVAL_RO", "FCALL", "FCALL_RO"] then
    .thirdArgAfterKeyCount
  else if isOneOf cmd secondArgCommands then .secondArg
  else if isOneOf cmd ["MIGRATE"] then .thirdArg
  else if isOneOf cmd
    ["LMPOP", "SINTERCARD", "ZDIFF", "ZINTER", "ZINTERCARD", "ZMPOP", "ZUNION"] then
    .secondArgAfterKeyCount
  else if isOneOf cmd ["XREAD", "XREADGROUP"] then .streamsIndex
  else if isOneOf cmd randomCommands then .random
  else if isOneOf cmd
    ["CLUSTER ADDSLOTS", "CLUSTER COUNTKEYSINSLOT", "CLUSTER DELSLOTS", "CLUSTER DELSLOTSRANGE",
      "CLUSTER GETKEYSINSLOT", "CLUSTER SETSLOT"] then
    .secondArgSlot
  else .firstKey

def readonlyCommands : List String :=
  ["ACL CAT", "ACL DELUSER", "ACL DRYRUN", "ACL GENPASS", "ACL GETUSER", "ACL HELP", "ACL LIST",
    "ACL LOAD", "ACL LOG", "ACL SAVE", "ACL SETUSER", "ACL USERS", "ACL WHOAMI", "AUTH",
    "BGREWRITEAOF", "BGSAVE", "BITCOUNT", "BITFIELD_RO", "BITPOS", "CLIENT ID",
    "CLIENT CACHING", "CLIENT CAPA", "CLIENT GETNAME", "CLIENT GETREDIR", "CLIENT HELP",
    "CLIENT INFO", "CLIENT KILL", "CLIENT LIST", "CLIENT NO-EVICT", "CLIENT NO-TOUCH",
    "CLIENT PAUSE", "CLIENT REPLY", "CLIENT SETINFO", "CLIENT SETNAME", "CLIENT TRACKING",
    "CLIENT TRACKINGINFO", "CLIENT UNBLOCK", "CLIENT UNPAUSE", "CLUSTER COUNT-FAILURE-REPORTS",
    "CLUSTER COUNTKEYSINSLOT", "CLUSTER FAILOVER", "CLUSTER GETKEYSINSLOT", "CLUSTER HELP",
    "CLUSTER INFO", "CLUSTER KEYSLOT", "CLUSTER LINKS", "CLUSTER MYID", "CLUSTER MYSHARDID",
    "CLUSTER NODES", "CLUSTER REPLICATE", "CLUSTER SAVECONFIG", "CLUSTER SHARDS",
    "CLUSTER SLOTS", "COMMAND COUNT", "COMMAND DOCS", "COMMAND GETKEYS",
    "COMMAND GETKEYSANDFLAGS", "COMMAND HELP", "COMMAND INFO", "COMMAND LIST", "CONFIG GET",
    "CONFIG HELP", "CONFIG RESETSTAT", "CONFIG REWRITE", "CONFIG SET", "DBSIZE", "DUMP", "ECHO",
    "EVAL_RO", "EVALSHA_RO", "EXISTS", "EXPIRETIME", "FCALL_RO", "FT.AGGREGATE", "FT.EXPLAIN",
    "FT.EXPLAINCLI", "FT.INFO", "FT.PROFILE", "FT.SEARCH", "FT._ALIASLIST", "FT._LIST",
    "FUNCTION DUMP", "FUNCTION HELP", "FUNCTION KILL", "FUNCTION LIST", "FUNCTION STATS",
    "GEODIST", "GEOHASH", "GEOPOS", "GEORADIUSBYMEMBER_RO", "GEORADIUS_RO", "GEOSEARCH", "GET",
    "GETBIT", "GETRANGE", "HELLO", "HEXISTS", "HGET", "HGETALL", "HKEYS", "HLEN", "HMGET",
    "HRANDFIELD", "HSCAN", "HSTRLEN", "HVALS", "JSON.ARRINDEX", "JSON.ARRLEN", "JSON.DEBUG",
    "JSON.GET", "JSON.OBJLEN", "JSON.OBJKEYS", "JSON.MGET", "JSON.RESP", "JSON.STRLEN",
    "JSON.TYPE", "INFO", "KEYS", "LASTSAVE", "LATENCY DOCTOR", "LATENCY GRAPH", "LATENCY HELP",
    "LATENCY HISTOGRAM", "LATENCY HISTORY", "LATENCY LATEST", "LATENCY RESET", "LCS", "LINDEX",
    "LLEN", "LOLWUT", "LPOS", "LRANGE", "MEMORY DOCTOR", "MEMORY HELP", "MEMORY MALLOC-STATS",
    "MEMORY PURGE", "MEMORY STATS", "MEMORY USAGE", "MGET", "MODULE HELP", "MODULE LIST",
    "MODULE LOAD", "MODULE LOADEX", "MODULE UNLOAD", "OBJECT ENCODING", "OBJECT FREQ",
    "OBJECT HELP", "OBJECT IDLETIME", "OBJECT REFCOUNT", "PEXPIRETIME", "PFCOUNT", "PING",
    "PSUBSCRIBE", "PTTL", "PUBLISH", "PUBSUB CHANNELS", "PUBSUB HELP", "PUBSUB NUMPAT",
    "PUBSUB NUMSUB", "PUBSUB SHARDCHANNELS", "PUBSUB SHARDNUMSUB", "PUNSUBSCRIBE", "RANDOMKEY",
    "REPLICAOF", "RESET", "ROLE", "SAVE", "SCAN", "SCARD", "SCRIPT DEBUG", "SCRIPT EXISTS",
    "SCRIPT FLUSH", "SCRIPT KILL", "SCRIPT LOAD", "SCRIPT SHOW", "SDIFF", "SELECT",
    "SENTINEL GET-MASTER-ADDR-BY-NAME", "SENTINEL MASTER", "SENTINEL MASTERS",
    "SENTINEL REPLICAS", "SENTINEL CKQUORUM", "SHUTDOWN", "SINTER", "SINTERCARD", "SISMEMBER",
    "SMEMBERS", "SMISMEMBER", "SLOWLOG GET", "SLOWLOG HELP", "SLOWLOG LEN", "SLOWLOG RESET",
    "SORT_RO", "SPUBLISH", "SRANDMEMBER", "SSCAN", "SSUBSCRIBE", "STRLEN", "SUBSCRIBE",
    "SUBSTR", "SUNION", "SUNSUBSCRIBE", "TIME", "TOUCH", "TTL", "TYPE", "UNSUBSCRIBE",
    "XINFO CONSUMERS", "XINFO GROUPS", "XINFO HELP", "XINFO STREAM", "XLEN", "XPENDING",
    "XRANGE", "XREAD", "XREVRANGE", "ZCARD", "ZCOUNT", "ZDIFF", "ZINTER", "ZINTERCARD",
    "ZLEXCOUNT", "ZMSCORE", "ZRANDMEMBER", "ZRANGE", "ZRANGEBYLEX", "ZRANGEBYSCORE", "ZRANK",
    "ZREVRANGE", "ZREVRANGEBYLEX", "ZREVRANGEBYSCORE", "ZREVRANK", "ZSCAN", "ZSCORE", "ZUNION"]

def isReadonlyCmd (cmd : Bytes) : Bool := isOneOf cmd readonlyCommands

inductive ResponsePolicy where
  | oneSucceeded
  | firstSucceededNonEmptyOrAllEmpty
  | allSucceeded
  | aggregateLogicalAnd
  | aggregateMin
  | aggregateSum
  | aggregateArrayMin
  | combineArrays
  | special
  | combineMaps
  deriving DecidableEq, Repr

def ResponsePolicy.forCommand (cmd : Bytes) : Option ResponsePolicy :=
  if isOneOf cmd ["SCRIPT EXISTS"] then some .aggregateLogicalAnd
  else if isOneOf cmd
    ["CLIENT KILL", "DBSIZE", "DEL", "EXISTS", "LATENCY RESET", "PUBSUB NUMPAT", "SLOWLOG LEN",
      "TOUCH", "UNLINK"] then
    some .aggregateSum
  else if isOneOf cmd ["WAIT"] then some .aggregateMin
  else if isOneOf cmd ["WAITAOF"] then some .aggregateArrayMin
  else if isOneOf cmd
    ["ACL SETUSER", "ACL DELUSER", "ACL SAVE", "AUTH", "CLIENT PAUSE", "CLIENT REPLY",
      "CLIENT SETNAME", "CLIENT SETINFO", "CLIENT UNPAUSE", "CONFIG SET", "CONFIG RESETSTAT",
      "CONFIG REWRITE", "FLUSHALL", "FLUSHDB", "FUNCTION DELETE", "FUNCTION FLUSH",
      "FUNCTION LOAD", "FUNCTION RESTORE", "MEMORY PURGE", "MSET", "JSON.MSET", "PING",
      "SCRIPT FLUSH", "SCRIPT LOAD", "SELECT", "SLOWLOG RESET", "UNWATCH", "WATCH", "RESET",
      "SAVE"] then
    some .allSucceeded
  else if isOneOf cmd
    ["KEYS", "FT._ALIASLIST", "FT._LIST", "MGET", "JSON.MGET", "SLOWLOG GET", "PUBSUB CHANNELS",
      "PUBSUB SHARDCHANNELS"] then
    some .combineArrays
  else if isOneOf cmd ["PUBSUB NUMSUB", "PUBSUB SHARDNUMSUB"] then some .combineMaps
  else if isOneOf cmd ["FUNCTION KILL", "SCRIPT KILL"] then some .oneSucceeded
  else if isOneOf cmd ["RANDOMKEY"] then some .firstSucceededNonEmptyOrAllEmpty
  else if isOneOf cmd
    ["LATENCY GRAPH", "LATENCY HISTOGRAM", "LATENCY HISTORY", "LATENCY DOCTOR",
      "LATENCY LATEST"] then
    some .special
  else if isOneOf cmd ["FUNCTION STATS"] then some .special
  else if isOneOf cmd ["MEMORY MALLOC-STATS", "MEMORY DOCTOR", "MEMORY STATS"] then some .special
  else if isOneOf cmd ["INFO"] then some .special
  else none

end ValkeyGlide.Cluster
