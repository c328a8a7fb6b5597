import PyHanko.Generic
import PyHanko.Format
import PyHanko.Xref.Chunks
import PyHanko.Xref.Table
import PyHanko.Xref.Stream
import PyHanko.Xref.Runs
import PyHanko.Writer.Basic
import PyHanko.Writer.Key
import PyHanko.Writer.Annotation
import PyHanko.Writer.Write
import PyHanko.PageTree.Walk
import PyHanko.PageTree.Insert
import PyHanko.Writer.Run
import PyHanko.PageTree.Tree
import PyHanko.PageTree.Counts
import PyHanko.PageTree.WalkSpec
import PyHanko.PageTree.InsertPlan
import PyHanko.PageTree.InsertEffect
import PyHanko.PageTree.InsertSpec
import PyHanko.Writer.Updates
import PyHanko.PageTree.Termination
import PyHanko.PageTree.Annotations
import PyHanko.PageTree.Document
import PyHanko.PageTree.PageObject
import PyHanko.Beid
import PyHanko.Sign.Attributes
