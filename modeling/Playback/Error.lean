/-!
# Errors of a player

One constructor per cause, and one function for the texts that users see.
-/

namespace Playback

inductive PlayerError where
  | io (detail : String)
  /-- A configuration text is no JSON or does not fit. -/
  | malformedConfig
  | open (detail : String)
  | noStream
  | openCodec (detail : String)
  | sendPacket (detail : String)
  | decode (detail : String)
  | render (detail : String)
  | audioOutput (detail : String)
  | loopGone (detail : String)
  | invalidConfig (detail : String)
  | state (detail : String)
  | other (detail : String)
  /-- An error of the host with its context. -/
  | host (detail : String)
deriving Repr, DecidableEq, Inhabited

namespace PlayerError

/-- Whether the part of the player that met the error has to give up; a frame that cannot be decoded may
be skipped. -/
def isFatal : PlayerError → Bool
  | decode _ => false
  | _ => true

/-- The text that users see. -/
def message : PlayerError → String
  | io detail => "IO 错误: " ++ detail
  | malformedConfig => "配置解析错误"
  | .open detail => "无法打开媒体源: " ++ detail
  | noStream => "无法找到可播放的音频/视频流"
  | openCodec detail => "无法打开解码器: " ++ detail
  | sendPacket detail => "送入数据包失败: " ++ detail
  | decode detail => "解码错误: " ++ detail
  | render detail => "渲染错误: " ++ detail
  | audioOutput detail => "音频输出错误: " ++ detail
  | loopGone detail => "消息循环已退出: " ++ detail
  | invalidConfig detail => "配置无效: " ++ detail
  | state detail => "播放器状态错误: " ++ detail
  | other detail => "其他错误: " ++ detail
  | host detail => "Anyhow 错误: " ++ detail

end PlayerError
end Playback
