import DefectGraphs.Graph.Listing
import DefectGraphs.Token.Cache
import DefectGraphs.Token.Codec
import DefectGraphs.Workspace

/-!
Models kept in files: a model is trained when its file is missing, and read from its file in any
case.
-/

namespace DefectGraphs.Token

structure Source where
  corpus : Files.Path
  vocabulary : Files.Path
  cache : Files.Path

def modelPath (cache : Files.Path) (backend : Backend) (vectorSize window : Nat) : Files.Path :=
  cache.join s!"{backend.name}_vs{vectorSize}_w{window}.model"

namespace Source

/-- The vocabulary's directory, or that of the corpus where there is no such directory. -/
def directory (source : Source) (tree : Files.Tree) : Files.Path :=
  if tree.isDirectory source.vocabulary then source.vocabulary else source.corpus

end Source

def trainFromFiles (source : Source) (backend : Backend) (training : Training) : Work Model := do
  let tree ← Work.tree
  let directory := source.directory tree
  if !tree.isDirectory directory then
    throw (.missingCorpus directory)
  Work.note (.trainingModel backend directory training.vectorSize training.window)
  let sentences ← Work.ofExcept (Graph.readSentences tree directory)
  let nodes := sentences.flatten.length
  if nodes = 0 then
    throw (.emptyCorpus directory)
  Work.note (.averageNodes nodes sentences.length)
  Work.ofExcept (Model.train backend sentences training)

namespace Model

/-- Writes a model beside its path and then gives it the path, so the path never holds half a
model. -/
def write (model : Model) (path : Files.Path) : Work Unit := do
  let temporary := path ++ ".tmp"
  Work.makeDirectories path.parent
  Work.change temporary (·.write temporary model.toBytes)
  Work.change path (·.rename temporary path)

def read (backend : Backend) (tree : Files.Tree) (path : Files.Path) : Except Failure Model :=
  match tree.read path with
  | .error fault => .error (.io path fault)
  | .ok bytes =>
    match (ofBytes? bytes).filter (·.backend = backend) with
    | none => .error (.unreadableModel path)
    | some model => .ok model

/-- The model at its path, which is trained and written first when nothing is there. -/
def loadOrTrain (source : Source) (backend : Backend) (training : Training) : Work Model := do
  let path := modelPath source.cache backend training.vectorSize training.window
  if !(← Work.tree).isPresent path then
    let model ← trainFromFiles source backend training
    model.write path
    Work.note (.createdModel backend path)
  Work.ofExcept (read backend (← Work.tree) path)

end Model

end DefectGraphs.Token
