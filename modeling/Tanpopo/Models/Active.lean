import Tanpopo.Download.Requests
/-!
# The model in use

Models are named by paths below the model directory. A GGUF model of the MLX
runtime is named with a prefix.
-/

namespace Tanpopo.Models

open Go Download

def mlxGGUFPathPrefix : String := "gguf:"

/-- What the status says about the models of the running process. -/
structure LlamaStatus where
  running : Bool
  runtime : String
  model : String
  draftModel : String
  mmProj : String

/-- One file of the running process is what the request names. -/
def assetMatches (runtime format modelPath path : String) (projection : Bool) : Bool :=
  let activePath := trimSpace path
  let activeFormat :=
    if !projection && runtime = runtimeMLXServer && !hasPrefix activePath mlxGGUFPathPrefix then "mlx" else "gguf"
  if activePath = "" || activeFormat ≠ format then false
  else
    let activePath := pathClean (trimPrefix activePath mlxGGUFPathPrefix)
    activePath = modelPath || (format = "mlx" && hasPrefix activePath (modelPath ++ "/"))

def activeModelMatches (status : LlamaStatus) (format modelPath : String) : Bool :=
  let format := toLower (trimSpace format)
  let modelPath := pathClean (trimPrefix (trimSpace modelPath) mlxGGUFPathPrefix)
  assetMatches status.runtime format modelPath status.model false ||
    assetMatches status.runtime format modelPath status.draftModel false ||
    assetMatches status.runtime format modelPath status.mmProj true

def errModelInUse : String := "此模型正在使用中，請先停止模型服務"

structure ModelFile where
  path : String
  dflashDraft : Bool

def isMMProjGGUF (path : String) : Bool := contains (toLower (pathBase path)) "mmproj"

/-- Drafts and projections are not models of their own. -/
def ModelFile.isTarget (model : ModelFile) : Bool := !(model.dflashDraft || isMMProjGGUF model.path)

end Tanpopo.Models
